import CoreCycler.Engine.Scheduler
import CoreCycler.Tuner.Bisect
import CoreCycler.Tuner.CoreRuns

/-!
# Kernel evidence that names no core

A hardware error whose line names no CPU says nothing about the core under test.  A
supervised run that sees one ends in `mce_unattributed`, which is no verdict
(`Accounted.run`).  An idle watch that sees one ends in a text, and the text mentions
`mce`: unless the kernel line itself brings a phrase that is classed before, the class is
that of an error on the core under test.
-/

namespace CoreCycler
namespace Tuner
namespace UnnamedEvidence

open Engine Library.Text

/-! ## Results that are no verdict -/

/-- The classes `_on_test_finished` takes for no stability verdict. -/
def lacksVerdict (errorType : Option ErrorType) : Bool :=
  decide (errorType ∈
    [some ErrorType.startup, some .thermal, some .stall, some .killed, some .mceUnattributed,
      some .unknown])

/-- The report moves the state machine of its core. -/
def isStabilityVerdict (report : Report) : Bool :=
  report.passed || !lacksVerdict report.errorType

/-! ## Supervised runs -/

/-- The event names no CPU of the lanes. -/
def Unnamed (lanes : List Lane) (event : MCEEvent) : Prop :=
  event.cpu = -1 ∨ ∀ lane ∈ lanes, event.cpu ∉ lane.mceCpus

def KernelRead.Unnamed (lanes : List Lane) : KernelRead → Prop
  | .events events => ∀ event ∈ events, UnnamedEvidence.Unnamed lanes event
  | .failed _ => True

/-- The backend reports no error, and its output passes. -/
def Ordinary (completion : Completion) : Prop :=
  completion.liveError = none ∧ completion.output.1 = true

structure QuietTick (lanes : List Lane) (tick : Tick) : Prop where
  backend : ∀ core, tick.backendErrors core = none
  exits : ∀ core completion, tick.exits core = some completion → Ordinary completion
  mce : KernelRead.Unnamed lanes tick.mce

/-- A run without a backend error or an abnormal exit, in which no event names a CPU of
the lanes. -/
structure QuietRun (lanes : List Lane) (script : RunScript) : Prop where
  ticks : ∀ tick ∈ script.ticks, QuietTick lanes tick
  completions : ∀ core, Ordinary (script.closing.completions core)
  mce : KernelRead.Unnamed lanes script.closing.mce

/-- A verdict on the lane, if there is one, is a pass or of a class that is no verdict. -/
def Classed (run : LaneRun) : Prop :=
  ∀ verdict, run.verdict = some verdict →
    verdict.passed = true ∨ lacksVerdict verdict.errorType = true

/-- An event that names no CPU was seen. -/
def SeesUnnamed (events : List MCEEvent) : Prop := ∃ event ∈ events, event.cpu = -1

theorem not_seesUnnamed_append {first second : List MCEEvent} (hfirst : ¬ SeesUnnamed first)
    (hsecond : ¬ SeesUnnamed second) : ¬ SeesUnnamed (first ++ second) := by
  rintro ⟨event, hmem, hcpu⟩
  rcases List.mem_append.mp hmem with hmem | hmem
  · exact hfirst ⟨event, hmem, hcpu⟩
  · exact hsecond ⟨event, hmem, hcpu⟩

/-- What the polls keep: no lane is charged, and once an event that names no CPU was seen
a lane has failed. -/
structure Accounted (lanes : List Lane) (seen : Prop) (sup : Supervisor) : Prop where
  lanes_eq : sup.runs.map LaneRun.lane = lanes
  classed : ∀ run ∈ sup.runs, Classed run
  failed : seen → ∃ run ∈ sup.runs, run.unfailed = false

section Polls

variable {lanes : List Lane} {seen : Prop} {sup : Supervisor} {core : Nat} {message : String}

/-- A change of runs that charges none and forgets no failure. -/
theorem Accounted.change (haccounted : Accounted lanes seen sup) (change : LaneRun → LaneRun)
    (hlane : ∀ run, (change run).lane = run.lane)
    (hclassed : ∀ run, Classed run → Classed (change run))
    (hfailed : ∀ run, run.unfailed = false → (change run).unfailed = false)
    {next : Supervisor} (hruns : next.runs = sup.runs.map change) :
    Accounted lanes seen next := by
  constructor
  · rw [hruns, List.map_map, ← haccounted.lanes_eq]
    exact List.map_congr_left fun run _ => hlane run
  · intro run hrun
    rw [hruns] at hrun
    obtain ⟨before, hbefore, rfl⟩ := List.mem_map.mp hrun
    exact hclassed before (haccounted.classed before hbefore)
  · rw [hruns]
    intro hseen
    obtain ⟨run, hrun, hfail⟩ := haccounted.failed hseen
    exact ⟨change run, List.mem_map_of_mem hrun, hfailed run hfail⟩

/-- A change of one lane. -/
theorem Accounted.onLane (haccounted : Accounted lanes seen sup) (change : LaneRun → LaneRun)
    (hlane : ∀ run, (change run).lane = run.lane)
    (hclassed : ∀ run, Classed run → Classed (change run))
    (hfailed : ∀ run, run.unfailed = false → (change run).unfailed = false) :
    Accounted lanes seen (sup.onLane core change) := by
  refine haccounted.change
    (fun run => if run.lane.coreId = core then change run else run) ?_ ?_ ?_ rfl
  · intro run
    split
    · exact hlane run
    · rfl
  · intro run hrun
    split
    · exact hclassed run hrun
    · exact hrun
  · intro run hfail
    split
    · exact hfailed run hfail
    · exact hfail

/-- A change of nothing but the stop event and the events observed. -/
theorem Accounted.of_runs (haccounted : Accounted lanes seen sup) {next : Supervisor}
    (hruns : next.runs = sup.runs) : Accounted lanes seen next := by
  refine haccounted.change id (fun _ => rfl) (fun _ => id) (fun _ => id) ?_
  rw [hruns, List.map_id]

/-- A failure of a class that is no verdict. -/
theorem Accounted.fail (haccounted : Accounted lanes seen sup) {errorType : ErrorType}
    (hlacks : lacksVerdict (some errorType) = true) :
    Accounted lanes seen (sup.fail core message (some errorType)) := by
  have hchange := @Accounted.onLane _ _ _ core haccounted (fun run =>
    { run with
      verdict := some
        { coreId := run.lane.coreId
          passed := false
          errorMessage := some message
          errorType := some errorType } }) (fun _ => rfl) ?_ (fun _ _ => rfl)
  · exact hchange.of_runs rfl
  · intro run _ verdict hverdict
    obtain rfl := Option.some.inj hverdict
    exact Or.inr hlacks

theorem Accounted.thermalFailed (haccounted : Accounted lanes seen sup) (reading : Thermal)
    (startup : Bool) : Accounted lanes seen (sup.thermalFailed reading startup).2 := by
  unfold Supervisor.thermalFailed
  cases reading with
  | safe => exact haccounted
  | exceeded =>
      simp only [if_true]
      split
      · exact (haccounted.fail rfl).of_runs rfl
      · exact haccounted.of_runs rfl
  | lost =>
      cases startup with
      | true =>
          simp only [reduceCtorEq, if_false, if_true]
          split
          · exact (haccounted.fail rfl).of_runs rfl
          · exact haccounted.of_runs rfl
      | false =>
          simp only [reduceCtorEq, if_false, Bool.false_eq_true]
          split
          · exact (haccounted.fail rfl).of_runs rfl
          · exact haccounted.of_runs rfl

/-- An event that names no CPU of the lanes is charged, if at all, for naming no CPU. -/
theorem chargedLane_unnamed {event : MCEEvent} (hlanes : sup.runs.map LaneRun.lane = lanes)
    (hunnamed : Unnamed lanes event) {run : LaneRun}
    (hcharged : sup.chargedLane event = some run) :
    event.cpu = -1 ∧ run ∈ sup.runs ∧ run.unfailed = true := by
  unfold Supervisor.chargedLane at hcharged
  split at hcharged
  · next hcpu =>
      have hmem := List.mem_filter.mp (List.argmin_mem hcharged)
      exact ⟨hcpu, hmem.1, hmem.2⟩
  · next hcpu =>
      have hown := List.find?_some hcharged
      have hmem := List.mem_of_find?_eq_some hcharged
      simp only [decide_eq_true_eq] at hown
      refine absurd hown (hunnamed.resolve_left hcpu run.lane ?_)
      rw [← hlanes]
      exact List.mem_map_of_mem (List.mem_reverse.mp hmem)

theorem exists_failed_fail {errorType : Option ErrorType} {run : LaneRun}
    (hrun : run ∈ sup.runs) :
    ∃ failed ∈ (sup.fail run.lane.coreId message errorType).runs, failed.unfailed = false := by
  refine ⟨_, List.mem_map_of_mem hrun, ?_⟩
  rw [if_pos rfl]
  rfl

/-- When no lane is left to charge, every lane has failed. -/
theorem exists_failed_of_leastLane (hne : sup.runs ≠ [])
    (hnone : sup.leastLane LaneRun.unfailed = none) :
    ∃ run ∈ sup.runs, run.unfailed = false := by
  unfold Supervisor.leastLane at hnone
  rw [List.argmin_eq_none, List.filter_eq_nil_iff] at hnone
  obtain ⟨run, rest, hruns⟩ := List.exists_cons_of_ne_nil hne
  have hmem : run ∈ sup.runs := by rw [hruns]; simp
  exact ⟨run, hmem, by simpa using hnone run hmem⟩

/-- **One event.**  No lane is charged for it, and a lane has failed if it names no CPU. -/
theorem Accounted.applyMceEvent {force hit : Bool} {event : MCEEvent} (hne : lanes ≠ [])
    (haccounted : Accounted lanes seen sup) (hunnamed : Unnamed lanes event) :
    Accounted lanes (seen ∨ event.cpu = -1)
      (Supervisor.applyMceEvent force (hit, sup) event).2 := by
  have hruns : sup.runs ≠ [] := by
    intro hnil
    exact hne (by rw [← haccounted.lanes_eq, hnil, List.map_nil])
  unfold Supervisor.applyMceEvent
  cases hcharged : sup.chargedLane event with
  | none =>
      refine ⟨haccounted.lanes_eq, haccounted.classed, ?_⟩
      rintro (hseen | hcpu)
      · exact haccounted.failed hseen
      · unfold Supervisor.chargedLane at hcharged
        rw [if_pos hcpu] at hcharged
        exact exists_failed_of_leastLane hruns hcharged
  | some run =>
      obtain ⟨hcpu, hmem, hunfailed⟩ :=
        chargedLane_unnamed haccounted.lanes_eq hunnamed hcharged
      simp only [hcpu, hunfailed, Bool.true_or, if_true]
      have hfail : Accounted lanes seen (sup.fail run.lane.coreId
          (mceMessage sup.phase event) (some .mceUnattributed)) := haccounted.fail rfl
      exact ⟨hfail.lanes_eq, hfail.classed, fun _ => exists_failed_fail hmem⟩

theorem applyMceEvent_observed (force : Bool) (state : Bool × Supervisor) (event : MCEEvent) :
    (Supervisor.applyMceEvent force state event).2.observed = state.2.observed := by
  unfold Supervisor.applyMceEvent
  split
  · rfl
  · split <;> rfl

/-- All events of a read, by induction on them. -/
theorem Accounted.foldEvents (hne : lanes ≠ []) {force : Bool} {events : List MCEEvent}
    (hunnamed : ∀ event ∈ events, Unnamed lanes event) {hit : Bool}
    (haccounted : Accounted lanes seen sup) :
    Accounted lanes (seen ∨ SeesUnnamed events)
        (events.foldl (Supervisor.applyMceEvent force) (hit, sup)).2 ∧
      (events.foldl (Supervisor.applyMceEvent force) (hit, sup)).2.observed = sup.observed := by
  induction events generalizing seen sup hit with
  | nil =>
      refine ⟨⟨haccounted.lanes_eq, haccounted.classed, ?_⟩, rfl⟩
      rintro (hseen | ⟨event, hmem, -⟩)
      · exact haccounted.failed hseen
      · exact absurd hmem (List.not_mem_nil)
  | cons event rest ih =>
      rw [List.forall_mem_cons] at hunnamed
      have hstep : Accounted lanes (seen ∨ event.cpu = -1)
          (Supervisor.applyMceEvent force (hit, sup) event).2 :=
        haccounted.applyMceEvent hne hunnamed.1
      have hobserved := applyMceEvent_observed force (hit, sup) event
      obtain ⟨hrest, hsame⟩ := ih hunnamed.2
        hstep
      rw [List.foldl_cons]
      refine ⟨⟨hrest.lanes_eq, hrest.classed, fun hseen => hrest.failed ?_⟩, hsame.trans hobserved⟩
      rcases hseen with hseen | ⟨found, hmem, hcpu⟩
      · exact Or.inl (Or.inl hseen)
      · rcases List.mem_cons.mp hmem with rfl | hmem
        · exact Or.inl (Or.inr hcpu)
        · exact Or.inr ⟨found, hmem, hcpu⟩

theorem Accounted.failUnfailed (haccounted : Accounted lanes seen sup) :
    Accounted lanes seen (sup.failUnfailed message .startup) ∧
      (sup.failUnfailed message .startup).observed = sup.observed := by
  unfold Supervisor.failUnfailed
  generalize hruns : sup.runs = runs
  clear hruns
  induction runs generalizing sup with
  | nil => exact ⟨haccounted, rfl⟩
  | cons run rest ih =>
      rw [List.foldl_cons]
      split
      · exact ih (haccounted.fail rfl)
      · exact ih haccounted

/-- A supervisor whose own events are accounted for. -/
abbrev Sound (lanes : List Lane) (sup : Supervisor) : Prop :=
  Accounted lanes (SeesUnnamed sup.observed) sup

theorem Sound.of_observed {next : Supervisor} (haccounted : Accounted lanes seen next)
    (hobserved : SeesUnnamed next.observed → seen) : Sound lanes next :=
  ⟨haccounted.lanes_eq, haccounted.classed, fun hseen => haccounted.failed (hobserved hseen)⟩

/-- A read of the kernel log. -/
theorem Sound.applyMceEvents (hne : lanes ≠ []) (hsound : Sound lanes sup) {read : KernelRead}
    (hunnamed : KernelRead.Unnamed lanes read) (force : Bool) :
    Sound lanes (sup.applyMceEvents read force).2 := by
  cases read with
  | failed detail =>
      obtain ⟨hfailed, hobserved⟩ := hsound.failUnfailed
      refine Sound.of_observed (hfailed.of_runs rfl) ?_
      show SeesUnnamed (sup.failUnfailed (monitorMessage detail) .startup).observed → _
      rw [hobserved]
      exact id
  | events events =>
      have hstart : Accounted lanes (SeesUnnamed sup.observed)
          { sup with observed := sup.observed ++ events } := hsound.of_runs rfl
      obtain ⟨hfold, hobserved⟩ :=
        hstart.foldEvents hne hunnamed
      refine Sound.of_observed hfold ?_
      show SeesUnnamed (events.foldl (Supervisor.applyMceEvent force)
        (false, { sup with observed := sup.observed ++ events })).2.observed → _
      rw [hobserved]
      rintro ⟨event, hmem, hcpu⟩
      rcases List.mem_append.mp hmem with hmem | hmem
      · exact Or.inl ⟨event, hmem, hcpu⟩
      · exact Or.inr ⟨event, hmem, hcpu⟩

theorem Sound.fail (hsound : Sound lanes sup) {errorType : ErrorType}
    (hlacks : lacksVerdict (some errorType) = true) :
    Sound lanes (sup.fail core message (some errorType)) :=
  Accounted.fail hsound hlacks

theorem Sound.thermalFailed (hsound : Sound lanes sup) (reading : Thermal) (startup : Bool) :
    Sound lanes (sup.thermalFailed reading startup).2 := by
  have hobserved : (sup.thermalFailed reading startup).2.observed = sup.observed := by
    unfold Supervisor.thermalFailed
    cases reading with
    | safe => rfl
    | exceeded =>
        dsimp only
        split <;> rfl
    | lost =>
        dsimp only
        split <;> rfl
  refine Sound.of_observed (Accounted.thermalFailed hsound reading startup) ?_
  rw [hobserved]
  exact id

/-- Without a backend error the poll for one does nothing. -/
theorem pollBackendErrors_quiet {errors : Nat → Option String}
    (hnone : ∀ core, errors core = none) : sup.pollBackendErrors errors = (false, sup) := by
  have hfault : sup.firstFault (·.verdict.isNone) errors = none := by
    unfold Supervisor.firstFault
    rw [List.findSome?_eq_none_iff]
    intro run _
    simp [hnone]
  unfold Supervisor.pollBackendErrors
  rw [hfault]

/-- An ordinary process is classed as a pass, or as no verdict. -/
theorem classifyCompleted_ordinary {completion : Completion} (hordinary : Ordinary completion)
    {interrupted : Bool} {verdict : StressResult}
    (hverdict : Supervisor.classifyCompleted core completion interrupted = some verdict) :
    verdict.passed = true ∨ lacksVerdict verdict.errorType = true := by
  obtain ⟨hlive, houtput⟩ := hordinary
  unfold Supervisor.classifyCompleted at hverdict
  simp only [hlive, houtput] at hverdict
  split at hverdict
  · obtain rfl := Option.some.inj hverdict
    exact Or.inr rfl
  · split at hverdict
    · next hfalse => exact absurd hfalse (by simp)
    · split at hverdict
      · obtain rfl := Option.some.inj hverdict
        exact Or.inr rfl
      · split at hverdict
        · exact absurd hverdict (by simp)
        · obtain rfl := Option.some.inj hverdict
          exact Or.inl rfl

theorem classed_closeLane {run : LaneRun} {teardown : Option String} {completion : Completion}
    (hordinary : Ordinary completion) :
    Classed (Supervisor.closeLane run teardown completion) := by
  intro verdict hverdict
  cases teardown with
  | some message =>
      obtain rfl := Option.some.inj hverdict
      exact Or.inr rfl
  | none => exact classifyCompleted_ordinary hordinary hverdict

theorem unfailed_of_isNone {run : LaneRun} (hnone : run.verdict.isNone = true) :
    run.unfailed = true := by
  unfold LaneRun.unfailed
  rw [Option.isNone_iff_eq_none.mp hnone]
  rfl

/-- The processes that are over, by induction on the lanes still to look at. -/
theorem Sound.pollExits (hsound : Sound lanes sup) {tick : Tick} (hquiet : QuietTick lanes tick)
    (runs : List LaneRun) : Sound lanes (sup.pollExits tick runs).2 := by
  induction runs generalizing sup with
  | nil => exact hsound
  | cons run rest ih =>
      unfold Supervisor.pollExits
      split
      · next completion _ hexit =>
          have hordinary := hquiet.exits run.lane.coreId completion hexit
          have hnext : Sound lanes (sup.onLane run.lane.coreId fun other =>
              if other.verdict.isNone then
                Supervisor.closeLane other (tick.teardown run.lane.coreId) completion
              else other) := by
            refine Accounted.onLane hsound _ ?_ ?_ ?_
            · intro other
              split
              · unfold Supervisor.closeLane
                split <;> rfl
              · rfl
            · intro other hclassed
              split
              · exact classed_closeLane hordinary
              · exact hclassed
            · intro other hfail
              split
              · next hnone => exact absurd (unfailed_of_isNone hnone) (by simp [hfail])
              · exact hfail
          dsimp only
          split
          · exact Accounted.of_runs hnext rfl
          · exact ih (Accounted.of_runs hnext rfl)
      · exact ih hsound

theorem Sound.pollContainment (hsound : Sound lanes sup) (fault : Nat → Option String) :
    Sound lanes (sup.pollContainment fault).2 := by
  unfold Supervisor.pollContainment
  split
  · exact hsound.fail rfl
  · exact hsound

theorem Sound.pollStalls (hsound : Sound lanes sup) (stalled : Nat → Bool) :
    Sound lanes (sup.pollStalls stalled).2 := by
  unfold Supervisor.pollStalls
  split
  · exact hsound.fail rfl
  · exact hsound

/-- **Step lemma.**  A round of the polls charges no lane. -/
theorem Sound.pollOnce (hne : lanes ≠ []) (hsound : Sound lanes sup) {tick : Tick}
    (hquiet : QuietTick lanes tick) : Sound lanes (sup.pollOnce tick).2 := by
  unfold Supervisor.pollOnce
  have hthermal := hsound.thermalFailed tick.thermal false
  have hmce := hthermal.applyMceEvents hne hquiet.mce false
  dsimp only
  split
  · exact hthermal
  split
  · exact hmce
  rw [pollBackendErrors_quiet hquiet.backend]
  have hexits := hmce.pollExits hquiet
    ((sup.thermalFailed tick.thermal false).2.applyMceEvents tick.mce false).2.runs
  have hcontainment := hexits.pollContainment tick.containment
  simp only [Bool.false_eq_true, if_false]
  split
  · exact hexits
  split
  · exact hexits
  split
  · exact hcontainment
  split
  · exact hcontainment.pollStalls tick.stalled
  · exact hcontainment.pollStalls tick.stalled

/-- **Run lemma.**  By induction on the rounds. -/
theorem Sound.pollUntilDone (hne : lanes ≠ []) (hsound : Sound lanes sup) {ticks : List Tick}
    (hquiet : ∀ tick ∈ ticks, QuietTick lanes tick) : Sound lanes (sup.pollUntilDone ticks) := by
  induction ticks generalizing sup with
  | nil => exact hsound
  | cons tick rest ih =>
      rw [List.forall_mem_cons] at hquiet
      have honce := hsound.pollOnce hne hquiet.1
      unfold Supervisor.pollUntilDone
      split
      · exact hsound
      · dsimp only
        split
        · exact honce
        · exact ih honce hquiet.2

theorem Sound.terminateRuns (hsound : Sound lanes sup) (teardown : Nat → Option String)
    (runs : List LaneRun) :
    Sound lanes (runs.foldl (Supervisor.terminateRun · teardown) sup) := by
  induction runs generalizing sup with
  | nil => exact hsound
  | cons run rest ih =>
      rw [List.foldl_cons]
      apply ih
      unfold Supervisor.terminateRun
      split
      · exact hsound.fail rfl
      · exact hsound

theorem Sound.finish (hne : lanes ≠ []) (hsound : Sound lanes sup) {closing : Closing}
    (hordinary : ∀ core, Ordinary (closing.completions core))
    (hmce : KernelRead.Unnamed lanes closing.mce) : Sound lanes (sup.finish closing) := by
  unfold Supervisor.finish
  have hstopped := hsound.terminateRuns closing.teardown sup.runs
  have hread := hstopped.applyMceEvents hne hmce true
  refine Accounted.change hread
    (Supervisor.completeRun closing (sup.stop && closing.early)) ?_ ?_ ?_ rfl
  · intro run
    unfold Supervisor.completeRun
    split <;> rfl
  · intro run hclassed
    unfold Supervisor.completeRun
    split
    · intro verdict hverdict
      exact classifyCompleted_ordinary (hordinary _) hverdict
    · exact hclassed
  · intro run hfail
    unfold Supervisor.completeRun
    rw [hfail, Bool.and_false, if_neg (by simp)]
    exact hfail

theorem Sound.launchAll (hsound : Sound lanes sup) (refusals : Nat → Option String)
    (runs : List LaneRun) : Sound lanes (sup.launchAll refusals runs) := by
  induction runs generalizing sup with
  | nil => exact hsound
  | cons run rest ih =>
      unfold Supervisor.launchAll
      split
      · exact hsound.fail rfl
      · apply ih
        exact Accounted.onLane hsound (fun other => { other with launched := true })
          (fun _ => rfl) (fun _ hclassed => hclassed) (fun _ hfail => hfail)

/-- **A supervised run charges no lane** for events that name none of its CPUs, and one
that sees an event without a CPU fails a lane. -/
theorem Sound.run (hne : lanes ≠ []) (hsound : Sound lanes sup) {script : RunScript}
    (hquiet : QuietRun lanes script) : Sound lanes (sup.run script) := by
  unfold Supervisor.run
  have hthermal := hsound.thermalFailed script.startThermal true
  dsimp only
  split
  · exact hthermal
  · have hlaunched := hthermal.launchAll script.refusals
      (sup.thermalFailed script.startThermal true).2.runs
    apply Sound.finish hne ?_ hquiet.completions hquiet.mce
    split
    · exact hlaunched.pollUntilDone hne hquiet.ticks
    · exact hlaunched

end Polls

/-! ## Idle watches -/

/-- The phrases whose class is looked up before that of a machine check, and is no
verdict. -/
def excusingPhrases : List String := unattributedPhrase :: startupPhrases

/-- The kernel line brings such a phrase of its own. -/
def Excused (event : MCEEvent) : Prop :=
  ∃ phrase ∈ excusingPhrases, Mentions (lower event.message) phrase

/-- The phase of an idle watch. -/
def IdlePhase (phase : String) : Prop :=
  phase = "CO settle" ∨ phase = "idle transition" ∨ phase = "idle stability" ∨
    ∃ cycle, phase = rapidPhase cycle

/-- A phrase without digits is not mentioned by way of a number. -/
theorem not_mentions_cycle {before : List Char} {phrase : String} (cycle : Nat)
    (hbefore : ¬ Mentions before phrase) (hne : phrase.toList ≠ [])
    (hdigits : (phrase.toList.all fun item => !item.isDigit) = true) :
    ¬ Mentions (before ++ lower (toString cycle)) phrase := by
  intro hmentions
  have hdigit : ∀ item ∈ lower (toString cycle), item ∉ phrase.toList := by
    intro item hitem hphrase
    obtain ⟨digit, hmem, hlower⟩ := List.mem_flatMap.mp hitem
    have hisDigit : digit.isDigit = true := by
      refine Nat.isDigit_of_mem_toDigits (b := 10) (n := cycle) (by omega) (by omega) ?_
      rw [← Nat.toList_repr]
      exact hmem
    rw [lowerChar_of_isDigit hisDigit, List.mem_singleton] at hlower
    subst hlower
    have hnot := List.all_eq_true.mp hdigits item hphrase
    rw [hisDigit] at hnot
    exact absurd hnot (by simp)
  have hsplit : phrase.toList <:+: before ++ lower (toString cycle) ++ [] := by
    rw [List.append_nil]
    exact hmentions
  have hgap : lower (toString cycle) ≠ [] := by
    refine lower_ne_nil fun hempty => ?_
    exact Nat.toDigits_ne_nil (by rw [← Nat.toList_repr]; exact hempty)
  rcases infix_or_infix hgap hdigit hsplit with hin | hin
  · exact hbefore hin
  · exact hne (List.infix_nil.mp hin)

/-- The text of an idle watch's phase brings no excusing phrase. -/
theorem IdlePhase.plain {phase : String} (hphase : IdlePhase phase) {phrase : String}
    (hphrase : phrase ∈ excusingPhrases) :
    ¬ Mentions (lower "MCE during " ++ lower phase) phrase := by
  have hfixed : ∀ phase ∈ ["CO settle", "idle transition", "idle stability"],
      ∀ phrase ∈ excusingPhrases, ¬ Mentions (lower "MCE during " ++ lower phase) phrase := by
    decide +kernel
  have hcycle : ∀ phrase ∈ excusingPhrases,
      ¬ Mentions (lower "MCE during " ++ lower "idle phase of rapid transition cycle ")
          phrase ∧
        phrase.toList ≠ [] ∧ (phrase.toList.all fun item => !item.isDigit) = true := by
    decide +kernel
  rcases hphase with hphase | hphase | hphase | ⟨cycle, hphase⟩
  · exact hfixed phase (by simp [hphase]) phrase hphrase
  · exact hfixed phase (by simp [hphase]) phrase hphrase
  · exact hfixed phase (by simp [hphase]) phrase hphrase
  · have htext : lower phase =
        lower "idle phase of rapid transition cycle " ++ lower (toString cycle) := by
      rw [hphase]
      exact lower_append _ _
    rw [htext, ← List.append_assoc]
    have hword := hcycle phrase hphrase
    exact not_mentions_cycle cycle hword.1 hword.2.1 hword.2.2

/-- An excusing phrase in the text of an idle watch comes from the kernel line. -/
theorem mentions_mceMessage {phase : String} (hphase : IdlePhase phase) (event : MCEEvent)
    {phrase : String} (hphrase : phrase ∈ excusingPhrases) :
    Mentions (lower (mceMessage phase event)) phrase ↔ Mentions (lower event.message) phrase := by
  have hshape : ∀ phrase ∈ excusingPhrases,
      ':' ∉ phrase.toList ∧ ∀ rest, phrase.toList <+: ' ' :: rest → False := by
    intro phrase hmem
    have hhead : ∀ phrase ∈ excusingPhrases,
        ':' ∉ phrase.toList ∧ phrase.toList.head? ≠ some ' ' ∧ phrase.toList ≠ [] := by decide
    obtain ⟨hcolon, hspace, hne⟩ := hhead phrase hmem
    refine ⟨hcolon, ?_⟩
    rintro rest ⟨tail, htail⟩
    obtain ⟨first, others, hphrase⟩ := List.exists_cons_of_ne_nil hne
    rw [hphrase, List.cons_append, List.cons.injEq] at htail
    rw [hphrase, htail.1] at hspace
    exact hspace rfl
  obtain ⟨hcolon, hspace⟩ := hshape phrase hphrase
  have htext : lower (mceMessage phase event) =
      (lower "MCE during " ++ lower phase) ++ [':'] ++ (' ' :: lower event.message) := by
    have hgap : lower ": " = [':', ' '] := by decide
    simp [mceMessage, hgap]
  rw [htext]
  constructor
  · intro hmentions
    have hgap : ∀ item ∈ [':'], item ∉ phrase.toList := by
      intro item hitem
      rw [List.mem_singleton.mp hitem]
      exact hcolon
    rcases infix_or_infix (by simp) hgap hmentions with hin | hin
    · exact absurd hin (hphase.plain hphrase)
    · rcases List.infix_cons_iff.mp hin with hprefix | hrest
      · exact absurd hprefix (hspace _)
      · exact hrest
  · intro hmentions
    exact mentions_append_right (List.IsInfix.trans hmentions (List.suffix_cons _ _).isInfix)

/-- An event that stops an idle watch is classed as no verdict only for its own words. -/
theorem lacksVerdict_event_iff {phase : String} (hphase : IdlePhase phase) (event : MCEEvent) :
    lacksVerdict (some (classifyError (some (mceMessage phase event)))) = true ↔
      Excused event := by
  have hne : mceMessage phase event ≠ "" := by
    intro hempty
    have hnil := congrArg lower hempty
    have hmce : lower "MCE during " ≠ [] := by decide
    simp only [mceMessage, lower_append, List.append_assoc] at hnil
    exact hmce (List.append_eq_nil_iff.mp (hnil.trans (by decide))).1
  have hmce : Mentions (lower (mceMessage phase event)) "mce" := by
    simp only [mceMessage, lower_append, List.append_assoc]
    exact mentions_append_left (by decide)
  have hstartup : (∃ phrase ∈ startupPhrases, Mentions (lower (mceMessage phase event)) phrase) ↔
      ∃ phrase ∈ startupPhrases, Mentions (lower event.message) phrase := by
    refine exists_congr fun phrase => and_congr_right fun hmem => ?_
    exact mentions_mceMessage hphase event (List.mem_cons_of_mem _ hmem)
  have hunattributed : Mentions (lower (mceMessage phase event)) unattributedPhrase ↔
      Mentions (lower event.message) unattributedPhrase :=
    mentions_mceMessage hphase event (List.mem_cons_self)
  simp only [classifyError, if_neg hne, classifyText, hstartup, hunattributed, hmce, true_or,
    if_true, Excused, excusingPhrases, List.exists_mem_cons_iff]
  by_cases hstart : ∃ phrase ∈ startupPhrases, Mentions (lower event.message) phrase
  · simp only [hstart, or_true, iff_true]
    rfl
  · by_cases hword : Mentions (lower event.message) unattributedPhrase
    · simp only [if_neg hstart, hword, true_or, iff_true]
      rfl
    · simp only [hstart, hword, or_self, iff_false]
      decide

/-- The text of a stop for heat mentions nothing that is classed before a temperature. -/
theorem not_mentions_exceeded {phase : String} (hphase : IdlePhase phase) (limit : Degrees)
    {phrase : String} (hphrase : phrase ∈ excusingPhrases ++ ["mce", "machine check"]) :
    ¬ Mentions (lower (exceededMessage limit phase)) phrase := by
  have hshape : ∀ phrase ∈ excusingPhrases ++ ["mce", "machine check"],
      ("-.0123456789".toList.all fun digit => decide (digit ∉ phrase.toList)) = true ∧
        ¬ Mentions (lower "CPU temperature exceeded ") phrase ∧ phrase.toList ≠ [] ∧
        (phrase.toList.all fun item => !item.isDigit) = true := by
    decide +kernel
  have hfixed : ∀ phase ∈ ["CO settle", "idle transition", "idle stability"],
      ∀ phrase ∈ excusingPhrases ++ ["mce", "machine check"],
        ¬ Mentions (lower " C safety limit during " ++ lower phase) phrase := by
    decide +kernel
  have hcycle : ∀ phrase ∈ excusingPhrases ++ ["mce", "machine check"],
      ¬ Mentions (lower " C safety limit during " ++
        lower "idle phase of rapid transition cycle ") phrase := by
    decide +kernel
  have hword := hshape phrase hphrase
  have hafter : ¬ Mentions (lower " C safety limit during " ++ lower phase) phrase := by
    rcases hphase with hphase | hphase | hphase | ⟨cycle, hphase⟩
    · exact hfixed phase (by simp [hphase]) phrase hphrase
    · exact hfixed phase (by simp [hphase]) phrase hphrase
    · exact hfixed phase (by simp [hphase]) phrase hphrase
    · have htext : lower phase =
          lower "idle phase of rapid transition cycle " ++ lower (toString cycle) := by
        rw [hphase]
        exact lower_append _ _
      rw [htext, ← List.append_assoc]
      exact not_mentions_cycle cycle (hcycle phrase hphrase) hword.2.2.1 hword.2.2.2
  have htext : lower (exceededMessage limit phase) =
      lower "CPU temperature exceeded " ++ lower limit.text ++
        (lower " C safety limit during " ++ lower phase) := by
    unfold exceededMessage
    rw [lower_append _ phase, lower_append _ " C safety limit during ",
      lower_append _ limit.text, List.append_assoc _ (lower " C safety limit during ")]
  intro hmentions
  rw [htext] at hmentions
  rcases infix_or_infix limit.ne_empty
    (fun digit hdigit => of_decide_eq_true
      (List.all_eq_true.mp hword.1 digit (limit.numeric digit hdigit))) hmentions with hin | hin
  · exact hword.2.1 hin
  · exact hafter hin

/-- Heat is no verdict. -/
theorem lacksVerdict_exceeded {phase : String} (hphase : IdlePhase phase) (limit : Degrees) :
    lacksVerdict (some (classifyError (some (exceededMessage limit phase)))) = true := by
  have hnot := fun phrase => @not_mentions_exceeded _ hphase limit phrase
  have htemperature : Mentions (lower (exceededMessage limit phase)) "temperature" := by
    unfold exceededMessage
    rw [lower_append _ phase, lower_append _ " C safety limit during ", lower_append _ limit.text]
    exact mentions_append_left (mentions_append_left (mentions_append_left (by decide)))
  have hne : exceededMessage limit phase ≠ "" := by
    intro hempty
    rw [hempty] at htemperature
    exact absurd htemperature (by decide)
  have hstartup : ¬ ∃ phrase ∈ startupPhrases,
      Mentions (lower (exceededMessage limit phase)) phrase := by
    rintro ⟨phrase, hmem, hmentions⟩
    exact hnot phrase (List.mem_append_left _ (List.mem_cons_of_mem _ hmem)) hmentions
  have hunattributed := hnot unattributedPhrase (List.mem_append_left _ List.mem_cons_self)
  have hmce := hnot "mce" (List.mem_append_right _ (by decide))
  have hcheck := hnot "machine check" (List.mem_append_right _ (by decide))
  simp only [classifyError, if_neg hne, classifyText, if_neg hstartup, if_neg hunattributed, hmce,
    hcheck, or_self, if_false, htemperature, true_or, if_true]
  rfl

/-- An unreadable kernel log is no verdict. -/
theorem lacksVerdict_monitor (detail : String) :
    lacksVerdict (some (classifyError (some (monitorMessage detail)))) = true := by
  have hmonitor : Mentions (lower (monitorMessage detail)) "kernel error monitor" := by
    unfold monitorMessage
    rw [lower_append _ detail]
    exact mentions_append_left (by decide)
  have hne : monitorMessage detail ≠ "" := by
    intro hempty
    rw [hempty] at hmonitor
    exact absurd hmonitor (by decide)
  have hstartup : ∃ phrase ∈ startupPhrases, Mentions (lower (monitorMessage detail)) phrase :=
    ⟨_, by decide, hmonitor⟩
  simp only [classifyError, if_neg hne, classifyText, if_pos hstartup]
  rfl

/-- An idle watch that runs its time has seen no event without a CPU. -/
theorem watchIdle_none {own : List Int} {limit : Degrees} {ticks : List IdleTick}
    (hnone : (watchIdle own limit ticks).1 = none) :
    ¬ SeesUnnamed (watchIdle own limit ticks).2 := by
  induction ticks with
  | nil =>
      rintro ⟨event, hmem, -⟩
      exact absurd hmem List.not_mem_nil
  | cons tick rest ih =>
      cases hmce : tick.mce with
      | failed detail => simp [watchIdle, hmce] at hnone
      | events events =>
          cases hfind : events.find? fun event => decide (event.cpu = -1 ∨ event.cpu ∈ own) with
          | some event =>
              simp only [watchIdle, hmce, hfind] at hnone
              exact absurd hnone (by simp)
          | none =>
              have hclear : ¬ SeesUnnamed events := by
                rintro ⟨event, hmem, hcpu⟩
                exact List.find?_eq_none.mp hfind event hmem (by simp [hcpu])
              have hwatch : watchIdle own limit (tick :: rest) =
                  if (!tick.finished && decide (tick.thermal ≠ .safe)) = true then
                    (some (.exceeded limit), events)
                  else if tick.finished = true then (none, events)
                  else ((watchIdle own limit rest).1, events ++ (watchIdle own limit rest).2) := by
                simp only [watchIdle, hmce, hfind]
              rw [hwatch] at hnone ⊢
              by_cases hheat : (!tick.finished && decide (tick.thermal ≠ .safe)) = true
              · rw [if_pos hheat] at hnone
                exact absurd hnone (by simp)
              · rw [if_neg hheat] at hnone ⊢
                by_cases hfinished : tick.finished = true
                · rw [if_pos hfinished]
                  exact hclear
                · rw [if_neg hfinished] at hnone ⊢
                  exact not_seesUnnamed_append hclear (ih hnone)

/-! ## Slots -/

/-- What an ending may be, given whether an event without a CPU was seen. -/
def FairEnd (seen : Prop) : SlotEnd → Prop
  | .noResult => True
  | .verdict result =>
      (result.passed = true → ¬ seen) ∧
        (result.passed = false → lacksVerdict result.errorType = true)
  | .idle phase _ => IdlePhase phase

/-- A failure of a class that is no verdict ends a slot, whatever was seen. -/
theorem fairEnd_failed {result : StressResult} (hfailed : result.passed = false)
    (hlacks : lacksVerdict result.errorType = true) (seen : Prop) :
    FairEnd seen (.verdict result) :=
  ⟨fun hpassed => absurd (hfailed.symm.trans hpassed) (by simp), fun _ => hlacks⟩

section Slots

variable {config : SlotConfig} {lane : Lane}

theorem sound_supervisor (config : SlotConfig) (phase : String) (stopOnFirstFailure : Bool)
    (lanes : List Lane) : Sound lanes (config.supervisor phase stopOnFirstFailure lanes) := by
  constructor
  · simp [SlotConfig.supervisor, Function.comp_def]
  · intro run hrun verdict hverdict
    obtain ⟨lane, -, rfl⟩ := List.mem_map.mp hrun
    exact absurd hverdict (by simp)
  · rintro ⟨event, hmem, -⟩
    exact absurd hmem List.not_mem_nil

/-- A supervised run of one lane. -/
theorem runLane_fair {phase : String} {script : RunScript} (hquiet : QuietRun [lane] script) :
    (∀ verdict, (runLane config phase lane script).1 = some verdict →
        FairEnd (SeesUnnamed (runLane config phase lane script).2) (.verdict verdict)) ∧
      ((runLane config phase lane script).1 = none →
        ¬ SeesUnnamed (runLane config phase lane script).2) := by
  have hsound := (sound_supervisor config phase false [lane]).run (by simp) hquiet
  unfold runLane
  dsimp only
  generalize (config.supervisor phase false [lane]).run script = sup at hsound ⊢
  obtain ⟨run, hruns, -⟩ := List.map_eq_singleton_iff.mp hsound.lanes_eq
  have honly : SeesUnnamed sup.observed → run.unfailed = false := by
    intro hseen
    obtain ⟨failed, hmem, hfail⟩ := hsound.failed hseen
    rw [hruns, List.mem_singleton] at hmem
    rwa [hmem] at hfail
  have hclassed := hsound.classed run (by simp [hruns])
  rw [hruns]
  constructor
  · intro verdict hverdict
    refine ⟨fun hpassed hseen => ?_, fun hfailed => ?_⟩
    · have hfail := honly hseen
      unfold LaneRun.unfailed at hfail
      rw [show run.verdict = some verdict from hverdict] at hfail
      exact absurd (hfail.symm.trans hpassed) (by simp)
    · refine (hclassed verdict hverdict).resolve_left ?_
      rw [hfailed]
      simp
  · intro hnone hseen
    have hfail := honly hseen
    unfold LaneRun.unfailed at hfail
    rw [show run.verdict = none from hnone] at hfail
    exact absurd hfail (by simp)

/-- A segment without a backend error or an abnormal exit, where nothing names the lane. -/
def QuietSegment (lane : Lane) : Segment → Prop
  | .load script => QuietRun [lane] script
  | .pause _ => True

/-- The variable load, by induction on its segments: what fails it is no verdict but for an
idle watch, and otherwise no event without a CPU was seen. -/
theorem runVariableLoad_fair {segments : List Segment}
    (hquiet : ∀ segment ∈ segments, QuietSegment lane segment) :
    (∀ ending, (runVariableLoad config lane segments).1 = some ending →
        ∀ seen, FairEnd seen ending) ∧
      ((runVariableLoad config lane segments).1 = none →
        ¬ SeesUnnamed (runVariableLoad config lane segments).2.2) := by
  induction segments with
  | nil =>
      refine ⟨fun ending hending => absurd hending (by simp [runVariableLoad]), ?_⟩
      rintro - ⟨event, hmem, -⟩
      exact absurd hmem List.not_mem_nil
  | cons segment rest ih =>
      rw [List.forall_mem_cons] at hquiet
      obtain ⟨hfails, hclear⟩ := ih hquiet.2
      cases segment with
      | load script =>
          obtain ⟨hverdict, hnone⟩ := runLane_fair
            hquiet.1
          cases hburst : (runLane config "variable load" lane script).1 with
          | none =>
              simp only [runVariableLoad, hburst]
              exact ⟨fun ending hending => absurd hending (by simp), fun _ => hnone hburst⟩
          | some verdict =>
              have hfair := hverdict verdict hburst
              cases hpassed : verdict.passed with
              | true =>
                  simp only [runVariableLoad, hburst, hpassed, if_true]
                  exact ⟨hfails, fun hend =>
                    not_seesUnnamed_append (hfair.1 hpassed) (hclear hend)⟩
              | false =>
                  simp only [runVariableLoad, hburst, hpassed, Bool.false_eq_true, if_false]
                  refine ⟨fun ending hending seen => ?_, fun hend => absurd hend (by simp)⟩
                  obtain rfl := Option.some.inj hending
                  exact fairEnd_failed hpassed (hfair.2 hpassed) seen
      | pause ticks =>
          cases hwatch : (watchIdle lane.mceCpus config.maxTemperature ticks).1 with
          | some stop =>
              simp only [runVariableLoad, hwatch]
              refine ⟨fun ending hending seen => ?_, fun hend => absurd hend (by simp)⟩
              obtain rfl := Option.some.inj hending
              exact Or.inr (Or.inl rfl)
          | none =>
              simp only [runVariableLoad, hwatch]
              exact ⟨hfails, fun hend =>
                not_seesUnnamed_append (watchIdle_none hwatch) (hclear hend)⟩

theorem idlePhase_none {ticks : Option (List IdleTick)}
    (hnone : (idlePhase config lane ticks).1 = none) :
    ¬ SeesUnnamed (idlePhase config lane ticks).2 := by
  cases ticks with
  | none =>
      rintro ⟨event, hmem, -⟩
      exact absurd hmem List.not_mem_nil
  | some ticks => exact watchIdle_none hnone

/-- A solo slot without a backend error or an abnormal exit. -/
structure QuietSolo (lane : Lane) (script : SoloScript) : Prop where
  stress : QuietRun [lane] script.stress
  variableLoad : ∀ segments, script.variableLoad = some segments →
    ∀ segment ∈ segments, QuietSegment lane segment

theorem variableLoadPhase_fair {script : SoloScript} (hquiet : QuietSolo lane script) :
    (∀ ending, (variableLoadPhase config lane script).1 = some ending →
        ∀ seen, FairEnd seen ending) ∧
      ((variableLoadPhase config lane script).1 = none →
        ¬ SeesUnnamed (variableLoadPhase config lane script).2.2) := by
  have hskipped : ∀ loads : Option SlotEnd × Bool × List MCEEvent, loads = (none, false, []) →
      (∀ ending, loads.1 = some ending → ∀ seen, FairEnd seen ending) ∧
        (loads.1 = none → ¬ SeesUnnamed loads.2.2) := by
    rintro loads rfl
    refine ⟨fun ending hending => absurd hending (by simp), ?_⟩
    rintro - ⟨event, hmem, -⟩
    exact absurd hmem List.not_mem_nil
  unfold variableLoadPhase
  split
  · exact hskipped _ rfl
  · next segments hsegments =>
      split
      · exact hskipped _ rfl
      · exact runVariableLoad_fair (hquiet.variableLoad segments hsegments)

theorem afterStress_fair {script : SoloScript} (hquiet : QuietSolo lane script)
    {before : List MCEEvent} (hbefore : ¬ SeesUnnamed before) :
    FairEnd (SeesUnnamed (before ++ (afterStress config lane script).observed))
      (afterStress config lane script).ending := by
  obtain ⟨hfails, hclear⟩ := variableLoadPhase_fair hquiet
  unfold afterStress
  dsimp only
  split
  · next ending hending => exact hfails ending hending _
  · next hnone =>
      have hseen := not_seesUnnamed_append hbefore (hclear hnone)
      split
      · exact Or.inr (Or.inr (Or.inl rfl))
      · next hidle =>
          split
          · trivial
          · refine ⟨fun _ => ?_, fun hfailed => absurd hfailed (by simp)⟩
            rw [← List.append_assoc]
            exact not_seesUnnamed_append hseen (idlePhase_none hidle)

/-- **A solo slot.**  Its phases in order. -/
theorem testCore_fair {script : SoloScript} (hquiet : QuietSolo lane script) :
    FairEnd (SeesUnnamed (testCore config lane script).observed)
      (testCore config lane script).ending := by
  unfold testCore
  dsimp only
  split
  · exact Or.inl rfl
  · next hsettle =>
      have hsettled := idlePhase_none hsettle
      split
      · trivial
      · obtain ⟨hverdict, -⟩ := runLane_fair
          hquiet.stress
        split
        · trivial
        · next verdict hstress =>
            have hfair := hverdict verdict hstress
            cases hpassed : verdict.passed with
            | true =>
                simp only [if_true]
                exact afterStress_fair hquiet
                  (not_seesUnnamed_append hsettled (hfair.1 hpassed))
            | false =>
                simp only [Bool.false_eq_true, if_false]
                exact fairEnd_failed hpassed (hfair.2 hpassed) _

/-- **Rapid transitions**, by induction on the cycles. -/
theorem runCycles_fair {stopped : Bool} {cycles : List Cycle}
    (hquiet : ∀ cycle ∈ cycles, QuietRun [lane] cycle.load) :
    ∀ number before, ¬ SeesUnnamed before →
      FairEnd (SeesUnnamed (before ++ (runCycles config lane stopped number cycles).observed))
        (runCycles config lane stopped number cycles).ending := by
  induction cycles with
  | nil =>
      intro number before hbefore
      cases stopped with
      | true => exact fairEnd_failed rfl rfl _
      | false =>
          refine ⟨fun _ => ?_, fun hfailed => absurd hfailed (by simp)⟩
          rw [runCycles, List.append_nil]
          exact hbefore
  | cons cycle rest ih =>
      rw [List.forall_mem_cons] at hquiet
      intro number before hbefore
      obtain ⟨hverdict, -⟩ := runLane_fair
        hquiet.1
      cases hload : (runLane config "rapid transition" lane cycle.load).1 with
      | none =>
          -- A load that was stopped, or came to no verdict, ends in a failure that charges nobody.
          cases hstopped : cycle.stoppedInLoad with
          | true =>
              simp only [runCycles, hload, hstopped, if_true]
              exact fairEnd_failed rfl rfl _
          | false =>
              simp only [runCycles, hload, hstopped, Bool.false_eq_true, if_false]
              exact fairEnd_failed rfl rfl _
      | some verdict =>
          have hfair := hverdict verdict hload
          cases hpassed : verdict.passed with
          | false =>
              simp only [runCycles, hload, hpassed, Bool.not_false, if_true]
              exact fairEnd_failed hpassed (hfair.2 hpassed) _
          | true =>
              cases hstopped : cycle.stoppedInLoad with
              | true =>
                  simp only [runCycles, hload, hpassed, hstopped, Bool.not_true,
                    Bool.false_eq_true, if_false, if_true]
                  exact fairEnd_failed rfl rfl _
              | false =>
                  cases hidle : (idlePhase config lane cycle.idle).1 with
                  | some stop =>
                      simp only [runCycles, hload, hpassed, hstopped, hidle, Bool.not_true,
                        Bool.false_eq_true, if_false]
                      exact Or.inr (Or.inr (Or.inr ⟨number, rfl⟩))
                  | none =>
                      simp only [runCycles, hload, hpassed, hstopped, hidle, Bool.not_true,
                        Bool.false_eq_true, if_false]
                      have hseen := not_seesUnnamed_append hbefore
                        (not_seesUnnamed_append (hfair.1 hpassed) (idlePhase_none hidle))
                      have hlater := ih hquiet.2 (number + 1) _ hseen
                      rwa [List.append_assoc] at hlater

end Slots

/-! ## Reports -/

/-- The report charges no core for evidence that names none: such evidence makes no slot
pass, and a failure is of a class that is no verdict. -/
def ChargesNobody (report : Report) : Prop :=
  (SeesUnnamed report.observed → report.passed = false) ∧
    (report.passed = false → lacksVerdict report.errorType = true)

/-- A report that rests on one lane charges nobody, but for an idle watch that an event
stops without an excuse. -/
theorem report_chargesNobody_iff {run : SlotRun}
    (hfair : FairEnd (SeesUnnamed run.observed) run.ending) (core : Nat) :
    ChargesNobody (run.report core) ↔
      ∀ phase event, run.ending = .idle phase (.event event) → Excused event := by
  unfold SlotRun.report
  cases hending : run.ending with
  | noResult =>
      refine ⟨fun _ phase event heq => absurd heq (by simp), fun _ => ⟨fun _ => rfl, fun _ => rfl⟩⟩
  | verdict result =>
      rw [hending] at hfair
      refine ⟨fun _ phase event heq => absurd heq (by simp), fun _ => ⟨fun hseen => ?_, hfair.2⟩⟩
      exact Bool.eq_false_iff.mpr fun hpassed => hfair.1 hpassed hseen
  | idle phase stop =>
      rw [hending] at hfair
      have hiff : ChargesNobody
          { core
            passed := false
            errorMessage := some (stop.message phase)
            errorType := some (classifyError (stop.message phase))
            observed := run.observed } ↔
          lacksVerdict (some (classifyError (some (stop.message phase)))) = true :=
        ⟨fun hcharges => hcharges.2 rfl, fun hlacks => ⟨fun _ => rfl, fun _ => hlacks⟩⟩
      rw [hiff]
      cases stop with
      | monitor detail =>
          exact ⟨fun _ _ _ heq => absurd heq (by simp), fun _ => lacksVerdict_monitor detail⟩
      | exceeded limit =>
          exact ⟨fun _ _ _ heq => absurd heq (by simp), fun _ => lacksVerdict_exceeded hfair limit⟩
      | event seen =>
          rw [show IdleStop.message phase (.event seen) = mceMessage phase seen from rfl,
            lacksVerdict_event_iff hfair]
          constructor
          · rintro hexcused other event heq
            simp only [SlotEnd.idle.injEq, IdleStop.event.injEq] at heq
            rwa [← heq.2]
          · intro hall
            exact hall phase seen rfl

/-- A pass is picked only when no lane has failed. -/
theorem pickReport_passed {results : List StressResult} {primary : Nat} {report : StressResult}
    (hpick : pickReport results primary = some report) (hpassed : report.passed = true) :
    ∀ result ∈ results, result.passed = true := by
  unfold pickReport at hpick
  dsimp only at hpick
  split at hpick
  · cases hfailing : (results.filter fun result => !result.passed).argmin (·.coreId) with
    | none =>
        rw [List.argmin_eq_none, List.filter_eq_nil_iff] at hfailing
        intro result hmem
        simpa using hfailing result hmem
    | some failing =>
        rw [hfailing, Option.some_or] at hpick
        obtain rfl := Option.some.inj hpick
        have hfailed := (List.mem_filter.mp (List.argmin_mem hfailing)).2
        simp [hpassed] at hfailed
  · next hfailed =>
      rw [hpick] at hfailed
      exact absurd hpassed (by simpa using hfailed)

theorem pickReport_mem {results : List StressResult} {primary : Nat} {report : StressResult}
    (hpick : pickReport results primary = some report) : report ∈ results := by
  unfold pickReport at hpick
  dsimp only at hpick
  split at hpick
  · rcases Option.or_eq_some_iff.mp hpick with hfailing | ⟨-, hprimary⟩
    · exact (List.mem_filter.mp (List.argmin_mem hfailing)).1
    · exact List.mem_of_find?_eq_some hprimary
  · exact List.mem_of_find?_eq_some hpick

/-- **A parallel slot** charges nobody. -/
theorem parallelReport_chargesNobody {config : SlotConfig} {lanes : List Lane}
    (hne : lanes ≠ []) {script : RunScript} (hquiet : QuietRun lanes script) (primary : Nat) :
    ChargesNobody (parallelReport config primary lanes script) := by
  have hsound := (sound_supervisor config "parallel stress" true lanes).run hne hquiet
  unfold parallelReport
  dsimp only
  generalize (config.supervisor "parallel stress" true lanes).run script = sup at hsound ⊢
  split
  · next result hpick =>
      refine ⟨fun hseen => ?_, fun hfailed => ?_⟩
      · rw [Bool.eq_false_iff]
        intro hpassed
        obtain ⟨run, hrun, hfail⟩ := hsound.failed hseen
        unfold LaneRun.unfailed at hfail
        cases hverdict : run.verdict with
        | none =>
            rw [hverdict] at hfail
            exact absurd hfail (by simp)
        | some verdict =>
            rw [hverdict] at hfail
            have hpass := pickReport_passed hpick hpassed verdict
              (List.mem_filterMap.mpr ⟨run, hrun, hverdict⟩)
            exact absurd (hfail.symm.trans hpass) (by simp)
      · obtain ⟨run, hrun, hverdict⟩ := List.mem_filterMap.mp (pickReport_mem hpick)
        refine (hsound.classed run hrun result hverdict).resolve_left ?_
        show ¬ result.passed = true
        rw [show result.passed = false from hfailed]
        simp
  · exact ⟨fun _ => rfl, fun _ => rfl⟩

/-! ## The engine -/

/-- A search slot that was stopped for heat: the same offset is tried again later. -/
def handleThermalAbort (config : TunerConfig) (cs : CoreState) (duration : ℚ)
    (reverted : Bool) : CoreState :=
  let aborted := { cs with thermalAborts := cs.thermalAborts + 1 }
  if !reverted then aborted
  else
    let timed :=
      if cs.phase = .confirmed then aborted
      else { aborted with cumulativeTestTime := cs.cumulativeTestTime + duration }
    if config.maxThermalRetries < timed.thermalAborts then timed
    else { timed with crashCooldown := max timed.crashCooldown 2 }

/-- The cores, beside the tested one, that a report brings evidence against. -/
def foreignMceByCore (cpuToCore : Int → Option CoreId) (coreIds : List CoreId)
    (tested : Option CoreId) (events : List MCEEvent) : List CoreId :=
  (events.filterMap fun event =>
    if event.cpu < 0 then none
    else (cpuToCore event.cpu).filter fun core =>
      decide (some core ≠ tested ∧ core ∈ coreIds)).dedup

/-- How a slot was run, as far as a report that is no verdict is handled by it. -/
structure SlotContext where
  /-- A search slot, outside validation. -/
  inSearch : Bool
  duration : ℚ
  /-- The core took its baseline after the slot. -/
  reverted : Bool

/-- `_on_test_finished`, outside a hunt and as far as it changes cores.  What a verdict does,
and what evidence against other cores does, are parameters. -/
def onTestFinished (config : TunerConfig) (cpuToCore : Int → Option CoreId)
    (applyForeignEvidence : List CoreState → List CoreId → List CoreState)
    (applyVerdict : List CoreState → Report → List CoreState) (slot : SlotContext)
    (coreStates : List CoreState) (report : Report) : List CoreState :=
  if isStabilityVerdict report then applyVerdict coreStates report
  else
    let lacks := decide (report.errorType ∈ [some ErrorType.startup, some .thermal])
    let foreign := foreignMceByCore cpuToCore (coreStates.map CoreState.coreId)
      (if lacks then none else some report.core) report.observed
    let charged := if foreign = [] then coreStates else applyForeignEvidence coreStates foreign
    charged.map fun cs =>
      if cs.coreId = report.core then
        let cleared := { cs with inTest := false }
        if report.errorType = some .thermal ∧ slot.inSearch = true then
          handleThermalAbort config cleared slot.duration slot.reverted
        else cleared
      else cs

/-- No core of the session is named by an event. -/
def NamesNoCore (cpuToCore : Int → Option CoreId) (coreStates : List CoreState)
    (events : List MCEEvent) : Prop :=
  ∀ event ∈ events, event.cpu < 0 ∨
    ∀ core, cpuToCore event.cpu = some core → core ∉ coreStates.map CoreState.coreId

theorem foreignMceByCore_eq_nil {cpuToCore : Int → Option CoreId} {coreStates : List CoreState}
    {events : List MCEEvent} (hnames : NamesNoCore cpuToCore coreStates events)
    (tested : Option CoreId) :
    foreignMceByCore cpuToCore (coreStates.map CoreState.coreId) tested events = [] := by
  have hnone : (events.filterMap fun event =>
      if event.cpu < 0 then none
      else (cpuToCore event.cpu).filter fun core =>
        decide (some core ≠ tested ∧ core ∈ coreStates.map CoreState.coreId)) = [] := by
    rw [List.filterMap_eq_nil_iff]
    intro event hmem
    split
    · rfl
    · next hcpu =>
        rw [Option.filter_eq_none_iff]
        intro core hcore hkept
        have hunnamed := (hnames event hmem).resolve_left hcpu core hcore
        exact hunnamed (of_decide_eq_true hkept).2
  rw [foreignMceByCore, hnone, List.dedup_nil]

/-- Only flags, counters and times of the cores change. -/
def OnlyBooks (before after : List CoreState) : Prop :=
  List.Forall₂ (fun cs next => ∃ books, next = keepBooks cs books) before after

/-- A report that is no verdict moves no core. -/
theorem onlyBooks_onTestFinished {config : TunerConfig} {cpuToCore : Int → Option CoreId}
    {applyForeignEvidence : List CoreState → List CoreId → List CoreState}
    {applyVerdict : List CoreState → Report → List CoreState} {slot : SlotContext}
    {coreStates : List CoreState} {report : Report}
    (hverdict : isStabilityVerdict report = false)
    (hnames : NamesNoCore cpuToCore coreStates report.observed) :
    OnlyBooks coreStates (onTestFinished config cpuToCore applyForeignEvidence applyVerdict slot
      coreStates report) := by
  unfold onTestFinished OnlyBooks
  rw [hverdict]
  simp only [Bool.false_eq_true, if_false, foreignMceByCore_eq_nil hnames, if_true]
  rw [List.forall₂_map_right_iff, List.forall₂_same]
  intro cs _
  split
  · split
    · unfold handleThermalAbort
      dsimp only
      split
      · exact ⟨⟨_, _, _, _, _, _⟩, rfl⟩
      · split <;> split <;> exact ⟨⟨_, _, _, _, _, _⟩, rfl⟩
    · exact ⟨⟨_, _, _, _, _, _⟩, rfl⟩
  · exact ⟨⟨_, _, _, _, _, _⟩, rfl⟩

/-- A slot without a backend error or an abnormal exit, in which nothing that is seen under
load names a CPU of its lanes. -/
def QuietSlot : Slot → Prop
  | .solo lane script => QuietSolo lane script
  | .parallel _ lanes script => lanes ≠ [] ∧ QuietRun lanes script
  | .rapid lane _ cycles => ∀ cycle ∈ cycles, QuietRun [lane] cycle.load
  | .raised _ _ => True

/-- **Evidence that names no core.**  A slot charges nobody for it exactly when no idle watch
ends the slot on an event whose own line lacks every excusing phrase; and a report that charges
nobody, once such evidence was seen, changes nothing but the books of the cores. -/
theorem unnamed_evidence_charges_nobody_iff (config : SlotConfig) {slot : Slot}
    (hquiet : QuietSlot slot) :
    (ChargesNobody (slot.report config) ↔
      ∀ run phase event, slot.run config = some run → run.ending = .idle phase (.event event) →
        Excused event) ∧
    (ChargesNobody (slot.report config) → SeesUnnamed (slot.report config).observed →
      ∀ (tuner : TunerConfig) cpuToCore applyForeignEvidence applyVerdict context coreStates,
        NamesNoCore cpuToCore coreStates (slot.report config).observed →
        OnlyBooks coreStates (onTestFinished tuner cpuToCore applyForeignEvidence applyVerdict
          context coreStates (slot.report config))) := by
  constructor
  · cases slot with
    | solo lane script =>
        have hiff := report_chargesNobody_iff (@testCore_fair config _ _ hquiet)
          lane.coreId
        rw [Slot.report, hiff]
        constructor
        · intro hexcused run phase event hrun hending
          obtain rfl := Option.some.inj hrun
          exact hexcused phase event hending
        · intro hexcused phase event hending
          exact hexcused _ phase event rfl hending
    | rapid lane stopped cycles =>
        have hfair := @runCycles_fair config _ stopped _ hquiet 1 [] (fun ⟨_, hmem, _⟩ => absurd hmem List.not_mem_nil)
        have hiff := report_chargesNobody_iff hfair lane.coreId
        rw [Slot.report, hiff]
        constructor
        · intro hexcused run phase event hrun hending
          obtain rfl := Option.some.inj hrun
          exact hexcused phase event hending
        · intro hexcused phase event hending
          exact hexcused _ phase event rfl hending
    | parallel primary lanes script =>
        exact ⟨fun _ run _ _ hrun => absurd hrun (by simp [Slot.run]),
          fun _ => parallelReport_chargesNobody hquiet.1 hquiet.2 primary⟩
    -- A slot that raised has no output to judge, and charges nobody.
    | raised core message =>
        exact ⟨fun _ run _ _ hrun => absurd hrun (by simp [Slot.run]),
          fun _ => ⟨fun _ => rfl, fun _ => rfl⟩⟩
  · intro hcharges hseen tuner cpuToCore applyForeignEvidence applyVerdict context coreStates hnames
    have hfailed := hcharges.1 hseen
    have hlacks := hcharges.2 hfailed
    refine onlyBooks_onTestFinished ?_ hnames
    rw [isStabilityVerdict, hfailed, hlacks]
    rfl

/-- A machine check whose kernel line names no CPU. -/
def unnamedMachineCheck : MCEEvent :=
  { cpu := -1, message := "mce: [Hardware Error]: Machine check: Processor context corrupt" }

/-- A quiet solo slot of core 3 without optional phases sees it in its first poll. -/
def slotUnderLoad : Slot :=
  .solo { coreId := 3, mceCpus := [3, 11] }
    { stress := { ticks := [{ mce := .events [unnamedMachineCheck] }] } }

/-- The same slot sees it while the new offset settles. -/
def slotInSettle : Slot :=
  .solo { coreId := 3, mceCpus := [3, 11] }
    { settle := some [{ mce := .events [unnamedMachineCheck] }] }

theorem numeric_95 : ∀ digit ∈ lower "95.0", digit ∈ "-.0123456789".toList := by
  have hall : ((lower "95.0").all fun digit => decide (digit ∈ "-.0123456789".toList)) = true := by
    decide
  simpa only [List.all_eq_true, decide_eq_true_eq] using hall

theorem ne_empty_95 : lower "95.0" ≠ [] := by decide

def celsius95 : Degrees where
  text := "95.0"
  ne_empty := ne_empty_95
  numeric := numeric_95

theorem quiet_slotUnderLoad : QuietSlot slotUnderLoad where
  stress := by
    refine ⟨?_, fun core => ⟨rfl, rfl⟩, fun event hmem => absurd hmem List.not_mem_nil⟩
    intro tick htick
    obtain rfl := List.mem_singleton.mp htick
    refine ⟨fun core => rfl, fun core completion hexit => absurd hexit (by simp), ?_⟩
    intro event hmem
    obtain rfl := List.mem_singleton.mp hmem
    exact Or.inl rfl
  variableLoad := fun _ hsome => absurd hsome (by simp)

theorem unnamed_evidence_under_load :
    (slotUnderLoad.report { maxTemperature := celsius95 }).errorType = some .mceUnattributed ∧
      ChargesNobody (slotUnderLoad.report { maxTemperature := celsius95 }) := by
  refine ⟨by decide +kernel, ?_⟩
  refine (unnamed_evidence_charges_nobody_iff _ quiet_slotUnderLoad).1.mpr ?_
  intro run phase event hrun hending
  obtain rfl := Option.some.inj hrun
  exact SlotEnd.noConfusion hending

theorem quiet_slotInSettle : QuietSlot slotInSettle where
  stress :=
    ⟨fun tick htick => absurd htick List.not_mem_nil, fun core => ⟨rfl, rfl⟩,
      fun event hmem => absurd hmem List.not_mem_nil⟩
  variableLoad := fun _ hsome => absurd hsome (by simp)

/-- While an offset settles, the same evidence is a machine check of the tested core. -/
theorem unnamed_evidence_charges_in_settle :
    QuietSlot slotInSettle ∧
      (slotInSettle.report { maxTemperature := celsius95 }).observed = [unnamedMachineCheck] ∧
      (slotInSettle.report { maxTemperature := celsius95 }).errorType = some .mce ∧
      isStabilityVerdict (slotInSettle.report { maxTemperature := celsius95 }) = true := by
  refine ⟨quiet_slotInSettle, ?_, ?_, ?_⟩
  · decide +kernel
  · decide +kernel
  · decide +kernel

end UnnamedEvidence
end Tuner
end CoreCycler
