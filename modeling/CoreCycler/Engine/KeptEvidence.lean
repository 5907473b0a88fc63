import CoreCycler.Engine.LaunchedLanes

/-!
# Evidence against the hardware

The verdict of a lane is one field, and every stage that finds a fault writes it.  The polls
ask for the verdict before; a teardown does not, and an event of the kernel log that finds its
lane failed by the harness is dropped unless it is the closing read.  `Sound` says of a step
that it is neither, and in a run of sound steps no evidence is lost (`evidence_kept`).  It is
exactly the unsound steps that lose some (`sound_iff`).
-/

namespace CoreCycler
namespace Engine

open Library Supervisor

/-- The classes of a failure that speaks against the hardware. -/
def stabilityClasses : List (Option ErrorType) := [some .computation, some .crash, some .mce]

/-- The launches are over. -/
def Phase.opened : Phase → Bool
  | .starting | .launching _ => false
  | _ => true

/-- The core whose process is stopped next. -/
def Phase.stopping : Phase → Option Nat
  | .stoppingExited core _ | .terminating (core :: _) => some core
  | _ => none

namespace LaneRun

/-- The lane carries a failure of a stability class. -/
def Convicted (run : LaneRun) : Prop :=
  ∃ verdict, run.verdict = some verdict ∧ verdict.passed = false ∧
    verdict.errorType ∈ stabilityClasses

variable {run next : LaneRun}

theorem Convicted.congr (hconvicted : run.Convicted) (hverdict : next.verdict = run.verdict) :
    next.Convicted := by
  unfold Convicted
  rw [hverdict]
  exact hconvicted

theorem Convicted.not_unfailed (hconvicted : run.Convicted) : ¬ run.unfailed = true := by
  obtain ⟨verdict, hverdict, hfailed, -⟩ := hconvicted
  rw [unfailed, hverdict, Option.all_some, hfailed]
  exact Bool.false_ne_true

theorem Convicted.not_undecided (hconvicted : run.Convicted) : ¬ run.verdict.isNone = true := by
  obtain ⟨verdict, hverdict, -⟩ := hconvicted
  rw [hverdict]
  exact Bool.false_ne_true

theorem running_undecided (run : LaneRun) (hrunning : run.running = true) :
    run.verdict.isNone = true := by
  simp only [running, Bool.and_eq_true] at hrunning
  exact hrunning.1.1

/-- No event is charged to a lane that is convicted already. -/
theorem Convicted.not_mayHear (hconvicted : run.Convicted) (force : Bool) :
    ¬ MayHear force run := by
  rintro (hunfailed | ⟨-, verdict, hverdict, hclass⟩)
  · exact hconvicted.not_unfailed hunfailed
  · obtain ⟨convicting, hconvicting, -, hstability⟩ := hconvicted
    obtain rfl : convicting = verdict := Option.some.inj (hconvicting.symm.trans hverdict)
    unfold stabilityClasses at hstability
    generalize convicting.errorType = errorType at hclass hstability
    revert errorType
    decide

end LaneRun

namespace Supervisor

variable {may : LaneRun → Prop} {sup next last : Supervisor}

/-! ## Kept convictions -/

/-- Every lane that was convicted stays so. -/
def Keeps (sup next : Supervisor) : Prop :=
  ∃ change : LaneRun → LaneRun, next.runs = sup.runs.map change ∧
    ∀ run ∈ sup.runs, (change run).lane = run.lane ∧ (run.Convicted → (change run).Convicted)

theorem Keeps.of_runs (hruns : next.runs = sup.runs) : Keeps sup next :=
  ⟨id, by rw [hruns, List.map_id], fun _ _ => ⟨rfl, id⟩⟩

theorem Keeps.trans (hfirst : Keeps sup next) (hsecond : Keeps next last) : Keeps sup last := by
  obtain ⟨first, hruns, hchange⟩ := hfirst
  obtain ⟨second, hruns', hchange'⟩ := hsecond
  refine ⟨second ∘ first, by rw [hruns', hruns, List.map_map], fun run hrun => ?_⟩
  have hnext : first run ∈ next.runs := hruns ▸ List.mem_map_of_mem hrun
  obtain ⟨hlane, hstays⟩ := hchange run hrun
  obtain ⟨hlane', hstays'⟩ := hchange' _ hnext
  exact ⟨hlane'.trans hlane, fun hconvicted => hstays' (hstays hconvicted)⟩

/-- Changes that reach no convicted lane. -/
theorem Keeps.of_moves (hmoves : Moves may sup next)
    (hnot : ∀ run ∈ sup.runs, run.Convicted → ¬ may run) : Keeps sup next := by
  obtain ⟨change, hruns, hchange⟩ := hmoves.change
  refine ⟨change, hruns, fun run hrun => ?_⟩
  obtain ⟨hlane, -, hreached⟩ := hchange run hrun
  refine ⟨hlane, fun hconvicted => ?_⟩
  rcases hreached with hmay | ⟨-, hverdict⟩
  · exact absurd hmay (hnot run hrun hconvicted)
  · exact hconvicted.congr hverdict

theorem Keeps.of_charges (hcharges : Charges may sup next)
    (hnot : ∀ run ∈ sup.runs, run.Convicted → ¬ may run) : Keeps sup next :=
  .of_moves (.of_charges hcharges) hnot

/-- A change of one core's lanes that leaves their verdicts alone. -/
theorem Keeps.onLane {core : Nat} {change : LaneRun → LaneRun}
    (hchange : ∀ run, (change run).lane = run.lane ∧ (change run).verdict = run.verdict) :
    Keeps sup (sup.onLane core change) := by
  refine ⟨_, rfl, fun run _ => ?_⟩
  by_cases hcore : run.lane.coreId = core
  · rw [if_pos hcore]
    exact ⟨(hchange run).1, fun hconvicted => hconvicted.congr (hchange run).2⟩
  · rw [if_neg hcore]
    exact ⟨rfl, id⟩

/-- Each lane comes from one before, and is convicted if that one was. -/
theorem Keeps.of_mem (hkeeps : Keeps sup next) {run : LaneRun} (hrun : run ∈ next.runs) :
    ∃ before ∈ sup.runs, run.lane = before.lane ∧ (before.Convicted → run.Convicted) := by
  obtain ⟨change, hruns, hchange⟩ := hkeeps
  rw [hruns] at hrun
  obtain ⟨before, hbefore, rfl⟩ := List.mem_map.mp hrun
  exact ⟨before, hbefore, hchange before hbefore⟩

theorem Keeps.apart (hkeeps : Keeps sup next) (hapart : sup.Apart) : next.Apart := by
  apply hapart.of_lanes
  intro run hrun
  obtain ⟨before, hbefore, hlane, -⟩ := hkeeps.of_mem hrun
  exact ⟨before, hbefore, hlane⟩

/-! ## Heard events -/

/-- The lanes named by one of the events are convicted. -/
def Heeds (sup : Supervisor) (events : List MCEEvent) : Prop :=
  ∀ run ∈ sup.runs, ∀ event ∈ events, event.cpu ∈ run.lane.mceCpus → run.Convicted

theorem Heeds.keeps {events : List MCEEvent} (hheeds : sup.Heeds events)
    (hkeeps : Keeps sup next) : next.Heeds events := by
  intro run hrun event hevent hcpu
  obtain ⟨before, hbefore, hlane, hstays⟩ := hkeeps.of_mem hrun
  exact hstays (hheeds before hbefore event hevent (hlane ▸ hcpu))

/-- The lane an event names is convicted already, or the event is charged to it. -/
def Hears (force : Bool) (sup : Supervisor) (event : MCEEvent) : Prop :=
  ∀ run ∈ sup.runs, event.cpu ∈ run.lane.mceCpus → run.Convicted ∨ MayHear force run

/-- Each event of a read is heard as its turn comes. -/
def HearsAll (force : Bool) : Bool × Supervisor → List MCEEvent → Prop
  | _, [] => True
  | state, event :: rest =>
      Hears force state.2 event ∧ HearsAll force (applyMceEvent force state event) rest

theorem keeps_applyMceEvent {force hit : Bool} (hdistinct : sup.Distinct) (event : MCEEvent) :
    Keeps sup (applyMceEvent force (hit, sup) event).2 :=
  .of_charges (charges_applyMceEvent hdistinct event)
    fun _ _ hconvicted => hconvicted.not_mayHear force

theorem keeps_foldEvents {force hit : Bool} {events : List MCEEvent} (hdistinct : sup.Distinct) :
    Keeps sup (events.foldl (applyMceEvent force) (hit, sup)).2 :=
  .of_charges (charges_foldEvents hdistinct) fun _ _ hconvicted => hconvicted.not_mayHear force

/-- What an event may be charged to, it is charged to if it names it. -/
theorem heard_of_mayHear {force : Bool} {event : MCEEvent} {run : LaneRun}
    (hmay : MayHear force run) (hne : event.cpu ≠ -1) :
    (run.unfailed || canOverride run event force) = true := by
  rcases hmay with hunfailed | ⟨hforce, verdict, hverdict, hclass⟩
  · rw [hunfailed, Bool.true_or]
  · rw [canOverride, hforce, hverdict, Option.any_some, decide_eq_true hne, decide_eq_true hclass,
      Bool.true_and, Bool.true_and, Bool.or_true]

/-- An event that is heard convicts the lane it names. -/
theorem convicted_of_named {force hit : Bool} (hdistinct : sup.Distinct) (hapart : sup.Apart)
    {event : MCEEvent} (hhears : Hears force sup event) :
    (applyMceEvent force (hit, sup) event).2.Heeds [event] := by
  have hkeeps := @keeps_applyMceEvent sup force hit hdistinct event
  intro run hrun named hnamed hcpu
  obtain rfl := List.mem_singleton.mp hnamed
  obtain ⟨before, hbefore, hlane, hstays⟩ := hkeeps.of_mem hrun
  rw [hlane] at hcpu
  rcases hhears before hbefore hcpu with hconvicted | hmay
  · exact hstays hconvicted
  · have hne : named.cpu ≠ -1 := by
      have hnonneg := hapart.numbered before hbefore named.cpu hcpu
      omega
    have hcharged := chargedLane_named hdistinct hapart hbefore hcpu
    unfold applyMceEvent at hrun
    simp only [hcharged, heard_of_mayHear hmay hne, if_true, if_neg hne] at hrun
    obtain ⟨other, -, heq⟩ := List.mem_map.mp hrun
    by_cases hcore : other.lane.coreId = before.lane.coreId
    · rw [if_pos hcore] at heq
      rw [← heq]
      exact ⟨_, rfl, rfl, List.mem_of_elem_eq_true rfl⟩
    · rw [if_neg hcore] at heq
      rw [heq, hlane] at hcore
      exact absurd rfl hcore

/-- In a read that is heard, every event convicts the lane it names. -/
theorem heeds_foldEvents {force hit : Bool} {events : List MCEEvent} (hdistinct : sup.Distinct)
    (hapart : sup.Apart) (hhears : HearsAll force (hit, sup) events) :
    (events.foldl (applyMceEvent force) (hit, sup)).2.Heeds events := by
  induction events generalizing sup hit with
  | nil => exact fun _ _ _ hevent => absurd hevent List.not_mem_nil
  | cons first rest ih =>
      obtain ⟨hfirst, hrest⟩ := hhears
      have hkeeps := @keeps_applyMceEvent sup force hit hdistinct first
      have hdistinct' := (@charges_applyMceEvent sup force hit hdistinct first).distinct hdistinct
      have hnamed := @convicted_of_named sup force hit hdistinct hapart first hfirst
      rw [List.foldl_cons]
      intro run hrun event hevent hcpu
      rcases List.mem_cons.mp hevent with rfl | hevent
      · exact hnamed.keeps (keeps_foldEvents hdistinct') run hrun event (List.mem_singleton_self _)
          hcpu
      · exact ih hdistinct' (hkeeps.apart hapart) hrest run hrun event hevent hcpu

/-- What a read must meet for its events to be heard. -/
def HearsRead (sup : Supervisor) (force : Bool) : KernelRead → Prop
  | .events events =>
      HearsAll force (false, { sup with observed := sup.observed ++ events }) events
  | .failed _ => True

theorem keeps_applyMceEvents (hdistinct : sup.Distinct) (read : KernelRead) (force : Bool) :
    Keeps sup (sup.applyMceEvents read force).2 := by
  have hread : Keeps { sup with observed := sup.observed ++ KernelRead.seen read }
      (sup.applyMceEvents read force).2 :=
    .of_charges (charges_applyMceEvents hdistinct read force)
      fun _ _ hconvicted => hconvicted.not_mayHear force
  exact (Keeps.of_runs rfl).trans hread

theorem observed_applyMceEvents (hdistinct : sup.Distinct) (read : KernelRead) (force : Bool) :
    (sup.applyMceEvents read force).2.observed = sup.observed ++ KernelRead.seen read :=
  (charges_applyMceEvents hdistinct read force).observed

/-- After a read that is heard, all events so far have been heeded. -/
theorem heeds_applyMceEvents (hdistinct : sup.Distinct) (hapart : sup.Apart)
    (hheeds : sup.Heeds sup.observed) {read : KernelRead} {force : Bool}
    (hhears : sup.HearsRead force read) :
    (sup.applyMceEvents read force).2.Heeds (sup.applyMceEvents read force).2.observed := by
  rw [observed_applyMceEvents hdistinct]
  intro run hrun event hevent hcpu
  rcases List.mem_append.mp hevent with hbefore | hseen
  · exact hheeds.keeps (keeps_applyMceEvents hdistinct read force) run hrun event hbefore hcpu
  · cases read with
    | failed detail => exact absurd hseen List.not_mem_nil
    | events events =>
        have hdistinct' : Distinct { sup with observed := sup.observed ++ events } := hdistinct
        have hapart' : Apart { sup with observed := sup.observed ++ events } :=
          ⟨hapart.disjoint, hapart.numbered⟩
        exact heeds_foldEvents hdistinct' hapart' hhears run hrun event hseen hcpu

end Supervisor

namespace Batch

variable {may : LaneRun → Prop} {batch next : Batch} {core : Nat}

/-! ## Sound steps -/

/-- A teardown of the core runs into no fault: the duty-cycle driver stops, and where there is
something left to stop, it is all gone in time and the return code of the leader is known. -/
def StopsCleanly (batch : Batch) (core : Nat) (teardown : Teardown) : Prop :=
  let process := batch.processes core
  (process.dutyDriver = true → teardown.dutyFault = none) ∧
    (batch.launched core = true → process.torn = false →
      teardown.fault = none ∧
        (teardown.probe.goneAfterTerm || teardown.probe.goneAfterKill) = true ∧
        (!process.contained || teardown.scopeGone) = true ∧
        (process.returnCode <|> teardown.returnCode).isSome = true)

def ConvictedAt (batch : Batch) (core : Nat) : Prop :=
  ∃ run ∈ batch.sup.runs, run.lane.coreId = core ∧ run.Convicted

/-- A step that loses no evidence: a lane that is convicted is torn down without a fault, and
every event of the kernel log is heard. -/
def Sound (batch : Batch) : SupervisionEvent → Prop
  | .forceTeardown core teardown =>
      batch.ConvictedAt core → batch.StopsCleanly core teardown
  | .terminate teardown => ∀ core ∈ batch.phase.stopping,
      batch.ConvictedAt core → batch.StopsCleanly core teardown
  | .readKernel read =>
      (batch.phase = .readingKernel → batch.sup.HearsRead false read) ∧
        (batch.phase = .closing → batch.sup.HearsRead true read)
  | _ => True

/-! ## What a stage keeps -/

/-- The convictions stand, and no event was read. -/
structure Unread (batch next : Batch) : Prop where
  keeps : Keeps batch.sup next.sup
  observed : next.sup.observed = batch.sup.observed

theorem has_spec (hdistinct : batch.sup.Distinct) {condition : LaneRun → Bool}
    (hhas : batch.has core condition = true) {run : LaneRun} (hrun : run ∈ batch.sup.runs)
    (hcore : run.lane.coreId = core) : condition run = true := by
  obtain ⟨found, hfound, hmeets⟩ := List.any_eq_true.mp hhas
  simp only [Bool.and_eq_true, decide_eq_true_eq] at hmeets
  rw [hdistinct.eq hrun hfound (hcore.trans hmeets.1.symm)]
  exact hmeets.2

/-- What happens to a lane that is not convicted takes nothing back. -/
theorem keeps_of_touches (htouches : TouchesCore core batch next)
    (hnot : ¬ batch.ConvictedAt core) : Keeps batch.sup next.sup :=
  .of_moves htouches.moves fun run hrun hconvicted hcore => hnot ⟨run, hrun, hcore, hconvicted⟩

theorem not_convictedAt (hdistinct : batch.sup.Distinct) {condition : LaneRun → Bool}
    (hhas : batch.has core condition = true)
    (hnot : ∀ run : LaneRun, run.Convicted → ¬ condition run = true) :
    ¬ batch.ConvictedAt core := by
  rintro ⟨run, hrun, hcore, hconvicted⟩
  exact hnot run hconvicted (has_spec hdistinct hhas hrun hcore)

theorem observed_stopDutyDriver (batch : Batch) (core : Nat) (fault : Option String) :
    (batch.stopDutyDriver core fault).sup.observed = batch.sup.observed := by
  unfold stopDutyDriver
  split
  · cases fault <;> rfl
  · rfl

theorem observed_terminateRun (batch : Batch) (core : Nat) (teardown : Teardown) :
    (batch.terminateRun core teardown).sup.observed = batch.sup.observed := by
  rw [← observed_stopDutyDriver batch core teardown.dutyFault]
  unfold terminateRun
  generalize batch.stopDutyDriver core teardown.dutyFault = stopped
  dsimp only
  split
  · rfl
  · cases teardown.fault with
    | some exc => rfl
    | none =>
        dsimp only
        split <;> rfl

/-- A duty-cycle driver that stops leaves the lanes and their processes as they were. -/
theorem stopDutyDriver_clean {fault : Option String}
    (hclean : (batch.processes core).dutyDriver = true → fault = none) :
    (batch.stopDutyDriver core fault).sup = batch.sup ∧
      ∃ dutyDriver, (batch.stopDutyDriver core fault).processes core =
        { batch.processes core with dutyDriver } := by
  unfold stopDutyDriver
  split
  · rename_i hdriver
    rw [hclean hdriver]
    exact ⟨rfl, false, by simp only [onProcess, if_true]⟩
  · exact ⟨rfl, (batch.processes core).dutyDriver, rfl⟩

/-- A clean teardown writes no verdict. -/
theorem keeps_terminateRun_clean {teardown : Teardown}
    (hclean : batch.StopsCleanly core teardown) :
    Keeps batch.sup (batch.terminateRun core teardown).sup := by
  obtain ⟨hduty, hstops⟩ := hclean
  obtain ⟨hsup, dutyDriver, hprocess⟩ := stopDutyDriver_clean hduty
  unfold terminateRun
  generalize batch.stopDutyDriver core teardown.dutyFault = stopped at hsup hprocess
  have hlaunched : stopped.launched core = batch.launched core := by
    unfold launched has
    rw [hsup]
  have htorn : (stopped.processes core).torn = (batch.processes core).torn := by
    rw [hprocess]
    rfl
  by_cases hskip : (!stopped.launched core || (stopped.processes core).torn) = true
  · simp only [hskip, if_true]
    exact .of_runs (by rw [hsup])
  · simp only [hskip]
    simp only [hlaunched, htorn, Bool.or_eq_true, Bool.not_eq_true', not_or,
      Bool.not_eq_false, Bool.not_eq_true] at hskip
    obtain ⟨hfault, hgroup, hscope, hcode⟩ := hstops hskip.1 hskip.2
    -- what is left after the teardown is nothing
    have hover : (((stopped.onProcess core (stopped.terminated teardown)).processes core).torn &&
        ((stopped.onProcess core (stopped.terminated teardown)).processes
          core).returnCode.isSome) = true := by
      simp only [onProcess, if_true, terminated, hprocess, Process.torn, Option.any_some,
        TerminationOutcome.allGone, killProcessGroup, Bool.and_eq_true]
      exact ⟨⟨hgroup, hscope⟩, hcode⟩
    rw [hfault]
    simp only [hover, if_true]
    refine (Keeps.of_runs (by rw [← hsup]; rfl)).trans
      (@Keeps.onLane (stopped.onProcess core (stopped.terminated teardown)).sup _ _
        fun run => ⟨rfl, rfl⟩)

theorem unread_terminateRun {teardown : Teardown}
    (hsound : batch.ConvictedAt core → batch.StopsCleanly core teardown) :
    Unread batch (batch.terminateRun core teardown) := by
  refine ⟨?_, observed_terminateRun batch core teardown⟩
  by_cases hconvicted : batch.ConvictedAt core
  · exact keeps_terminateRun_clean (hsound hconvicted)
  · exact keeps_of_touches (touches_terminateRun batch core teardown) hconvicted

theorem unread_drain (hdistinct : batch.sup.Distinct) (core : Nat) (capture : Capture) :
    Unread batch (batch.drain core capture) := by
  cases capture with
  | read stdout stderr => exact ⟨.of_runs rfl, rfl⟩
  | failed exc =>
      by_cases hunfailed : batch.has core LaneRun.unfailed = true
      · have htouches := touches_drain batch core (.failed exc)
        rw [drain, if_pos hunfailed] at htouches ⊢
        exact ⟨keeps_of_touches htouches (not_convictedAt hdistinct hunfailed
          fun _ hconvicted => hconvicted.not_unfailed), rfl⟩
      · rw [drain, if_neg hunfailed]
        exact ⟨.of_runs rfl, rfl⟩

/-- Only a lane that has not failed is classed. -/
theorem unread_classify {classes : CharClasses} {results : ResultsFile} {elapsed : ℚ}
    {interrupted : Bool} (hnot : ¬ batch.ConvictedAt core) :
    Unread batch (batch.classify classes core results elapsed interrupted) :=
  ⟨keeps_of_touches (touches_classify classes batch core results elapsed interrupted) hnot, rfl⟩

theorem unread_classifyExited {classes : CharClasses} (hdistinct : batch.sup.Distinct)
    (core : Nat) (rest : List Nat) (results : ResultsFile) :
    Unread batch (batch.classifyExited classes core rest results) := by
  rw [classifyExited]
  by_cases hnone : batch.has core (·.verdict.isNone) = true
  · simp only [hnone, if_true]
    obtain ⟨hkeeps, hobserved⟩ := @unread_classify batch core classes results batch.now false
      (not_convictedAt hdistinct hnone fun _ hconvicted => hconvicted.not_undecided)
    exact ⟨hkeeps, hobserved⟩
  · simp only [hnone]
    exact ⟨.of_runs rfl, rfl⟩

theorem unread_classifyLane {classes : CharClasses} (hdistinct : batch.sup.Distinct)
    (core : Nat) (results : ResultsFile) :
    Unread batch (batch.classifyLane classes core results) := by
  rw [classifyLane]
  split
  · rename_i hlane
    apply unread_classify
    apply not_convictedAt hdistinct hlane
    intro run hconvicted hmeets
    exact hconvicted.not_unfailed (Bool.and_eq_true_iff.mp hmeets).2
  · exact ⟨.of_runs rfl, rfl⟩

theorem unread_pollExit (hdistinct : batch.sup.Distinct) (core : Nat) (rest : List Nat)
    (exit : Option Int) (dutyFault : Option String) :
    Unread batch (batch.pollExit core rest exit dutyFault) := by
  have hobserved := observed_stopDutyDriver batch core dutyFault
  have hduty := touches_stopDutyDriver batch core dutyFault
  rw [pollExit]
  split
  · rename_i hlane
    have hnot : ¬ batch.ConvictedAt core := by
      apply not_convictedAt hdistinct hlane
      intro run hconvicted hmeets
      exact hconvicted.not_undecided (Bool.and_eq_true_iff.mp hmeets).1
    split
    · exact ⟨.of_runs rfl, rfl⟩
    · refine ⟨(keeps_of_touches hduty hnot).trans ?_, hobserved⟩
      exact @Keeps.onLane (batch.stopDutyDriver core dutyFault).sup _ _ fun run => ⟨rfl, rfl⟩
  · exact ⟨.of_runs rfl, rfl⟩

/-- A poll that fails only lanes without a verdict. -/
theorem unread_poll {sup : Supervisor} (hcharges : Charges may batch.sup sup)
    (hmay : ∀ run : LaneRun, may run → run.verdict.isNone = true) :
    Unread batch (batch.charge sup) :=
  ⟨.of_charges hcharges fun run _ hconvicted hreached =>
    hconvicted.not_undecided (hmay run hreached), hcharges.observed⟩

theorem Unread.congr {last : Batch} (hunread : Unread batch next) (hsup : last.sup = next.sup) :
    Unread batch last :=
  ⟨hsup ▸ hunread.keeps, by rw [hsup]; exact hunread.observed⟩

theorem unread_readErrors {classes : CharClasses} (hdistinct : batch.sup.Distinct)
    (results : Nat → ResultsFile) : Unread batch (batch.readErrors classes results) := by
  rw [readErrors]
  split
  · exact (unread_poll (charges_pollBackendErrors hdistinct _) fun _ => id).congr rfl
  · exact ⟨.of_runs rfl, rfl⟩

/-! ## The lanes that wait -/

/-- Before its launch a lane has no verdict. -/
def Waiting (batch : Batch) : Prop :=
  match batch.phase with
  | .starting => ∀ run ∈ batch.sup.runs, run.launched = false ∧ run.verdict = none
  | .launching rest => rest.Nodup ∧
      ∀ run ∈ batch.sup.runs, run.lane.coreId ∈ rest → run.launched = false ∧ run.verdict = none
  | _ => True

/-- What only reaches launched lanes keeps the others waiting. -/
theorem Waiting.keep (hwaiting : batch.Waiting) (hphase : next.phase = batch.phase)
    (hmoves : Moves (fun run => run.launched = true) batch.sup next.sup) : next.Waiting := by
  obtain ⟨change, hruns, hchange⟩ := hmoves.change
  have hkept : ∀ run ∈ batch.sup.runs, run.launched = false ∧ run.verdict = none →
      (change run).launched = false ∧ (change run).verdict = none := by
    intro run hrun ⟨hlaunched, hverdict⟩
    rcases (hchange run hrun).2.2 with hreached | ⟨hlaunched', hverdict'⟩
    · rw [hlaunched] at hreached
      cases hreached
    · exact ⟨hlaunched'.trans hlaunched, hverdict'.trans hverdict⟩
  unfold Waiting at hwaiting ⊢
  rw [hphase, hruns]
  split at hwaiting
  · intro run hrun
    obtain ⟨before, hbefore, rfl⟩ := List.mem_map.mp hrun
    exact hkept before hbefore (hwaiting before hbefore)
  · refine ⟨hwaiting.1, fun run hrun hrest => ?_⟩
    obtain ⟨before, hbefore, rfl⟩ := List.mem_map.mp hrun
    rw [(hchange before hbefore).1] at hrest
    exact hkept before hbefore (hwaiting.2 before hbefore hrest)
  · trivial

theorem waiting_of_opened (hopened : batch.phase.opened = true) : batch.Waiting := by
  unfold Waiting
  generalize batch.phase = phase at hopened ⊢
  cases phase <;> trivial

/-- A lane is launched once. -/
theorem waiting_launch {rest : List Nat} (hphase : batch.phase = .launching (core :: rest))
    (hwaiting : batch.Waiting) (outcome : Launch) :
    (batch.launch core rest outcome).Waiting := by
  have hentering {next : Batch} (hphase : next.phase = .entering) : next.Waiting :=
    waiting_of_opened (by rw [hphase]; rfl)
  rw [Waiting, hphase] at hwaiting
  obtain ⟨hnodup, hlanes⟩ := hwaiting
  obtain ⟨hcore, hrest⟩ := List.nodup_cons.mp hnodup
  cases outcome with
  | captureFailed exc => exact hentering rfl
  | refused exc => exact hentering rfl
  | started contained dutyDriver =>
      rw [launch]
      split
      · exact hentering rfl
      · refine ⟨hrest, fun run hrun hmem => ?_⟩
        obtain ⟨before, hbefore, rfl⟩ := List.mem_map.mp hrun
        by_cases hsame : before.lane.coreId = core
        · rw [if_pos hsame] at hmem
          exact absurd (hsame ▸ hmem) hcore
        · rw [if_neg hsame] at hmem ⊢
          exact hlanes before hbefore (List.mem_cons_of_mem _ hmem)
  | dutyFailed contained dutyDriver exc =>
      rw [launch]
      split <;> exact hentering rfl

theorem unread_launch {rest : List Nat} (hphase : batch.phase = .launching (core :: rest))
    (hwaiting : batch.Waiting) (outcome : Launch) :
    Unread batch (batch.launch core rest outcome) := by
  rw [Waiting, hphase] at hwaiting
  have hnot : ∀ run ∈ batch.sup.runs, run.Convicted → ¬ run.lane.coreId = core := by
    intro run hrun hconvicted hcore
    apply hconvicted.not_undecided
    rw [(hwaiting.2 run hrun (hcore ▸ List.mem_cons_self)).2]
    rfl
  refine ⟨.of_moves (moves_launch batch core rest outcome (.inr fun _ _ => id)) hnot, ?_⟩
  cases outcome with
  | captureFailed exc => rfl
  | refused exc => rfl
  | started contained dutyDriver =>
      rw [launch]
      split <;> rfl
  | dutyFailed contained dutyDriver exc =>
      rw [launch]
      split <;> rfl

/-! ## Every step -/

structure Guarded (batch : Batch) : Prop where
  placed : batch.Placed
  apart : batch.sup.Apart
  waiting : batch.Waiting
  heeds : batch.sup.Heeds batch.sup.observed

/-- A lane that was never launched has no output to drain. -/
theorem unread_drainLane (hdistinct : batch.sup.Distinct) (core : Nat) (capture : Capture) :
    Unread batch (if batch.launched core then batch.drain core capture else batch) := by
  split
  · exact unread_drain hdistinct core capture
  · exact ⟨.of_runs rfl, rfl⟩

/-- A stage other than a read of the kernel log takes no conviction back. -/
theorem unread_step {classes : CharClasses} {event : SupervisionEvent} (hguarded : batch.Guarded)
    (hsound : batch.Sound event) (hnotRead : ∀ read, event ≠ .readKernel read)
    (hstep : batch.step classes event = some next) : Unread batch next := by
  have hdistinct := hguarded.placed.distinct
  -- Only the kernel journal is read into the evidence; the other events may charge lanes, and keep
  -- it.
  cases stage_of_step hstep with
  | readKernel read hphase => exact absurd rfl (hnotRead read)
  | closeKernel read hphase => exact absurd rfl (hnotRead read)
  | wait seconds hforward => exact ⟨.of_runs rfl, rfl⟩
  | requestStop => exact ⟨.of_runs rfl, rfl⟩
  | forceTeardown core teardown hopen =>
      have htorn : Unread { batch with sup := { batch.sup with stop := true } }
          (terminateRun { batch with sup := { batch.sup with stop := true } } core teardown) :=
        unread_terminateRun hsound
      exact ⟨(Keeps.of_runs rfl).trans htorn.keeps, htorn.observed⟩
  | checkStart reading hphase =>
      exact (unread_poll (charges_thermalFailed hdistinct reading true) fun _ => id).congr rfl
  | readThermal reading hphase =>
      exact (unread_poll (charges_thermalFailed hdistinct reading false) fun _ => id).congr rfl
  | launch core rest outcome hphase => exact unread_launch hphase hguarded.waiting outcome
  | readErrors results hphase => exact unread_readErrors hdistinct results
  | pollExit core rest exit dutyFault hphase =>
      exact unread_pollExit hdistinct core rest exit dutyFault
  | pollContainment fault hphase =>
      have hcharges := charges_pollContainment hdistinct fault
      exact (unread_poll hcharges LaneRun.running_undecided).congr rfl
  | pollStalls stalled hphase =>
      have hcharges := charges_pollStalls hdistinct stalled
      exact (unread_poll hcharges LaneRun.running_undecided).congr rfl
  | stopExited core rest teardown hphase =>
      exact (unread_terminateRun (hsound core (by rw [hphase]; rfl))).congr rfl
  | stopLane core rest teardown hphase =>
      exact (unread_terminateRun (hsound core (by rw [hphase]; rfl))).congr rfl
  | drainExited core rest capture hphase =>
      exact (unread_drain hdistinct core capture).congr rfl
  | drainLane core rest capture hphase =>
      exact (unread_drainLane hdistinct core capture).congr rfl
  | classifyExited core rest results hphase => exact unread_classifyExited hdistinct core rest results
  | classifyLane core rest results hphase =>
      exact (unread_classifyLane hdistinct core results).congr rfl
  | proceed honset => cases honset <;> exact ⟨.of_runs rfl, rfl⟩

theorem opened_pollExit (batch : Batch) (core : Nat) (rest : List Nat) (exit : Option Int)
    (dutyFault : Option String) : (batch.pollExit core rest exit dutyFault).phase.opened = true := by
  unfold pollExit
  split
  · split <;> rfl
  · rfl

theorem opened_classifyExited (classes : CharClasses) (batch : Batch) (core : Nat)
    (rest : List Nat) (results : ResultsFile) :
    (batch.classifyExited classes core rest results).phase.opened = true := by
  unfold classifyExited
  dsimp only
  split_ifs <;> rfl

theorem opened_readErrors (classes : CharClasses) (batch : Batch) (results : Nat → ResultsFile) :
    (batch.readErrors classes results).phase.opened = true := by
  unfold readErrors
  dsimp only
  split
  · dsimp only
    split_ifs <;> rfl
  · rfl

/-- A poll that leads on or to the end comes after the launches. -/
theorem opened_ite {ends : Prop} [Decidable ends] {first second : Phase}
    (hfirst : first.opened = true) (hsecond : second.opened = true) :
    (if ends then first else second).opened = true := by
  split
  · exact hfirst
  · exact hsecond

/-- The thermal check before the start finds every lane waiting. -/
theorem waiting_checkStart (hdistinct : batch.sup.Distinct) (hphase : batch.phase = .starting)
    (hwaiting : batch.Waiting) (reading : Thermal) :
    Waiting { batch.charge (batch.sup.thermalFailed reading true).2 with
      phase := if (batch.sup.thermalFailed reading true).1 then .done
        else .launching batch.cores } := by
  rw [Waiting, hphase] at hwaiting
  cases reading with
  | safe => exact ⟨hdistinct, fun run hrun _ => hwaiting run hrun⟩
  | exceeded => exact waiting_of_opened rfl
  | lost => exact waiting_of_opened rfl

theorem opened_onset (honset : Onset batch next) : next.phase.opened = true := by
  cases honset with
  | loop hphase => exact opened_ite rfl rfl
  | poll hphase => exact opened_ite rfl rfl
  | running hphase => exact opened_ite rfl rfl
  | deadline hphase => exact opened_ite rfl rfl
  | enter hphase => rfl
  | exitsPolled hphase => rfl
  | ending hphase => rfl
  | terminated hphase => rfl
  | classed hphase => rfl

theorem waiting_step {classes : CharClasses} {event : SupervisionEvent} (hplaced : batch.Placed)
    (hwaiting : batch.Waiting) (hstep : batch.step classes event = some next) :
    next.Waiting := by
  -- beside the run, a stop reaches launched lanes only
  have hbeside (hreaches : batch.Reaches (fun run => run.launched = true) event)
      (hnotLaunch : ∀ outcome, event ≠ .launch outcome) (hphase : next.phase = batch.phase) :
      next.Waiting :=
    hwaiting.keep hphase (touches_step hplaced (fun _ => id) hreaches hnotLaunch hstep).moves
  cases stage_of_step hstep with
  | wait seconds hforward => exact hbeside trivial (fun _ => SupervisionEvent.noConfusion) rfl
  | requestStop => exact hbeside trivial (fun _ => SupervisionEvent.noConfusion) rfl
  | forceTeardown core teardown hopen =>
      exact hbeside trivial (fun _ => SupervisionEvent.noConfusion) phase_terminateRun
  | checkStart reading hphase => exact waiting_checkStart hplaced.distinct hphase hwaiting reading
  | launch core rest outcome hphase => exact waiting_launch hphase hwaiting outcome
  -- All other stages come after the launches.
  | readThermal reading hphase => exact waiting_of_opened (opened_ite rfl rfl)
  | readKernel read hphase => exact waiting_of_opened (opened_ite rfl rfl)
  | pollContainment fault hphase => exact waiting_of_opened (opened_ite rfl rfl)
  | pollStalls stalled hphase => exact waiting_of_opened (opened_ite rfl rfl)
  | readErrors results hphase =>
      exact waiting_of_opened (opened_readErrors classes batch results)
  | pollExit core rest exit dutyFault hphase =>
      exact waiting_of_opened (opened_pollExit batch core rest exit dutyFault)
  | classifyExited core rest results hphase =>
      exact waiting_of_opened (opened_classifyExited classes batch core rest results)
  | closeKernel read hphase => exact waiting_of_opened rfl
  | stopExited core rest teardown hphase => exact waiting_of_opened rfl
  | stopLane core rest teardown hphase => exact waiting_of_opened rfl
  | drainExited core rest capture hphase => exact waiting_of_opened rfl
  | drainLane core rest capture hphase => exact waiting_of_opened rfl
  | classifyLane core rest results hphase => exact waiting_of_opened rfl
  | proceed honset => exact waiting_of_opened (opened_onset honset)

/-- A sound step takes no conviction back, and all events read so far have been heeded. -/
theorem evidence_step {classes : CharClasses} {event : SupervisionEvent}
    (hguarded : batch.Guarded) (hsound : batch.Sound event)
    (hstep : batch.step classes event = some next) :
    Keeps batch.sup next.sup ∧ next.sup.Heeds next.sup.observed := by
  have hplaced := hguarded.placed
  have hapart := hguarded.apart
  have hheeds := hguarded.heeds
  have hread (force : Bool) {read : KernelRead} (hhears : batch.sup.HearsRead force read)
      (hsup : next.sup = (batch.sup.applyMceEvents read force).2) :
      Keeps batch.sup next.sup ∧ next.sup.Heeds next.sup.observed := by
    rw [hsup]
    exact ⟨keeps_applyMceEvents hplaced.distinct read force,
      heeds_applyMceEvents hplaced.distinct hapart hheeds hhears⟩
  by_cases hkernel : ∃ read, event = .readKernel read
  · obtain ⟨read, rfl⟩ := hkernel
    cases stage_of_step hstep with
    | readKernel read hphase => exact hread false (hsound.1 hphase) rfl
    | closeKernel read hphase => exact hread true (hsound.2 hphase) rfl
  · obtain ⟨hkeeps, hobserved⟩ := unread_step hguarded hsound
      (fun read heq => hkernel ⟨read, heq⟩) hstep
    rw [hobserved]
    exact ⟨hkeeps, hheeds.keeps hkeeps⟩

/-! ## Exactness -/

/-- Every lane of the core was failed by the harness. -/
def Harnessed (core : Nat) (sup : Supervisor) : Prop :=
  ∀ run ∈ sup.runs, run.lane.coreId = core → ∃ verdict, run.verdict = some verdict ∧
    verdict.errorType = some .startup

theorem Harnessed.not_convicted {sup : Supervisor} (hharnessed : Harnessed core sup)
    {run : LaneRun} (hrun : run ∈ sup.runs) (hcore : run.lane.coreId = core) :
    ¬ run.Convicted := by
  rintro ⟨verdict, hverdict, -, hclass⟩
  obtain ⟨found, hfound, hstartup⟩ := hharnessed run hrun hcore
  obtain rfl : found = verdict := Option.some.inj (hfound.symm.trans hverdict)
  rw [hstartup] at hclass
  revert hclass
  decide

theorem harnessed_fail (batch : Batch) (core : Nat) (message : String) :
    Harnessed core (batch.fail core message).sup := by
  intro run hrun hcore
  obtain ⟨before, -, rfl⟩ := List.mem_map.mp hrun
  by_cases hsame : before.lane.coreId = core
  · rw [if_pos hsame]
    exact ⟨_, rfl, rfl⟩
  · rw [if_neg hsame] at hcore
    exact absurd hcore hsame

/-- A change of one core's lanes that leaves their verdicts alone. -/
theorem Harnessed.onLane {sup : Supervisor} (hharnessed : Harnessed core sup) {other : Nat}
    {change : LaneRun → LaneRun}
    (hchange : ∀ run, (change run).lane = run.lane ∧ (change run).verdict = run.verdict) :
    Harnessed core (sup.onLane other change) := by
  intro run hrun hcore
  obtain ⟨before, hbefore, rfl⟩ := List.mem_map.mp hrun
  by_cases hsame : before.lane.coreId = other
  · rw [if_pos hsame] at hcore ⊢
    rw [(hchange before).1] at hcore
    rw [(hchange before).2]
    exact hharnessed before hbefore hcore
  · rw [if_neg hsame] at hcore ⊢
    exact hharnessed before hbefore hcore

/-- A teardown that meets a fault leaves the verdict of the harness. -/
theorem harnessed_terminateRun {teardown : Teardown}
    (hfault : ¬ batch.StopsCleanly core teardown) :
    Harnessed core (batch.terminateRun core teardown).sup := by
  by_cases hduty : (batch.processes core).dutyDriver = true → teardown.dutyFault = none
  · obtain ⟨hsup, dutyDriver, hprocess⟩ := stopDutyDriver_clean hduty
    have hleft : ¬ (batch.launched core = true → (batch.processes core).torn = false →
        teardown.fault = none ∧
          (teardown.probe.goneAfterTerm || teardown.probe.goneAfterKill) = true ∧
          (!(batch.processes core).contained || teardown.scopeGone) = true ∧
          ((batch.processes core).returnCode <|> teardown.returnCode).isSome = true) :=
      fun hstops => hfault ⟨hduty, hstops⟩
    push Not at hleft
    obtain ⟨hlaunched, htorn, hleft⟩ := hleft
    unfold terminateRun
    generalize batch.stopDutyDriver core teardown.dutyFault = stopped at hsup hprocess
    have hskip : (!stopped.launched core || (stopped.processes core).torn) = false := by
      have hlaunched' : stopped.launched core = true := by
        unfold launched has at hlaunched ⊢
        rw [hsup]
        exact hlaunched
      rw [hlaunched', hprocess]
      exact htorn
    simp only [hskip]
    cases hraise : teardown.fault with
    | some exc => exact harnessed_fail stopped core _
    | none =>
        -- something remains, or the leader has no return code
        have hover : (((stopped.onProcess core (stopped.terminated teardown)).processes core).torn &&
            ((stopped.onProcess core (stopped.terminated teardown)).processes
              core).returnCode.isSome) = false := by
          simp only [onProcess, if_true, terminated, hprocess, Process.torn, Option.any_some,
            TerminationOutcome.allGone, killProcessGroup]
          by_contra hover
          simp only [Bool.not_eq_false, Bool.and_eq_true] at hover
          exact hleft hraise hover.1.1 hover.1.2 hover.2
        simp only [hover]
        exact harnessed_fail _ core _
  · push Not at hduty
    obtain ⟨hdriver, hsome⟩ := hduty
    obtain ⟨exc, hexc⟩ := Option.ne_none_iff_exists'.mp hsome
    have hharnessed : Harnessed core (batch.stopDutyDriver core teardown.dutyFault).sup := by
      rw [stopDutyDriver, if_pos hdriver, hexc]
      exact harnessed_fail _ core _
    unfold terminateRun
    generalize batch.stopDutyDriver core teardown.dutyFault = stopped at hharnessed
    dsimp only
    split
    · exact hharnessed
    · cases teardown.fault with
      | some exc => exact harnessed_fail stopped core _
      | none =>
          dsimp only
          split
          · exact hharnessed.onLane fun run => ⟨rfl, rfl⟩
          · exact harnessed_fail _ core _

/-- A teardown that takes no conviction back met no fault where there was one. -/
theorem stopsCleanly_of_keeps {teardown : Teardown}
    (hkeeps : Keeps batch.sup (batch.terminateRun core teardown).sup)
    (hconvicted : batch.ConvictedAt core) : batch.StopsCleanly core teardown := by
  by_contra hfault
  obtain ⟨run, hrun, hcore, hconvicted⟩ := hconvicted
  obtain ⟨change, hruns, hchange⟩ := hkeeps
  obtain ⟨hlane, hstays⟩ := hchange run hrun
  have hnext : change run ∈ (batch.terminateRun core teardown).sup.runs :=
    hruns ▸ List.mem_map_of_mem hrun
  exact (harnessed_terminateRun hfault).not_convicted hnext ((congrArg Lane.coreId hlane).trans hcore)
    (hstays hconvicted)

/-- If all events of a read were heeded in the end, each was heard in its turn. -/
theorem hearsAll_of_heeds {sup : Supervisor} {force hit : Bool} {events : List MCEEvent}
    (hdistinct : sup.Distinct)
    (hheeds : (events.foldl (applyMceEvent force) (hit, sup)).2.Heeds events) :
    HearsAll force (hit, sup) events := by
  induction events generalizing sup hit with
  | nil => trivial
  | cons first rest ih =>
      constructor
      · intro run hrun hcpu
        by_contra hunheard
        obtain ⟨hnot, hdeaf⟩ := not_or.mp hunheard
        have hlast := (@charges_foldEvents sup force (first :: rest) hit hdistinct).mem hrun hdeaf
        exact hnot (hheeds run hlast first List.mem_cons_self hcpu)
      · have hdistinct' :=
          (@charges_applyMceEvent sup force hit hdistinct first).distinct hdistinct
        rw [List.foldl_cons] at hheeds
        exact ih hdistinct' fun run hrun event hevent =>
          hheeds run hrun event (List.mem_cons_of_mem _ hevent)

theorem hearsRead_of_heeds {sup : Supervisor} {read : KernelRead} {force : Bool}
    (hdistinct : sup.Distinct)
    (hheeds : (sup.applyMceEvents read force).2.Heeds
      (sup.applyMceEvents read force).2.observed) : sup.HearsRead force read := by
  rw [observed_applyMceEvents hdistinct] at hheeds
  cases read with
  | failed detail => trivial
  | events events =>
      have hdistinct' : Distinct { sup with observed := sup.observed ++ events } := hdistinct
      exact hearsAll_of_heeds hdistinct' fun run hrun event hevent =>
        hheeds run hrun event (List.mem_append_right _ hevent)

/-- **Exactly the sound steps lose no evidence.** -/
theorem sound_iff {classes : CharClasses} {event : SupervisionEvent} (hguarded : batch.Guarded)
    (hstep : batch.step classes event = some next) :
    batch.Sound event ↔ Keeps batch.sup next.sup ∧ next.sup.Heeds next.sup.observed := by
  refine ⟨fun hsound => evidence_step hguarded hsound hstep, fun ⟨hkeeps, hheeds⟩ => ?_⟩
  have hdistinct := hguarded.placed.distinct
  cases event with
  | forceTeardown core teardown =>
      cases stage_of_step hstep with
      | forceTeardown _ _ hopen =>
          exact @stopsCleanly_of_keeps { batch with sup := { batch.sup with stop := true } } core
            teardown hkeeps
  | terminate teardown =>
      intro core hcore
      cases stage_of_step hstep with
      | stopExited stopped rest _ hphase =>
          rw [hphase] at hcore
          cases hcore
          exact stopsCleanly_of_keeps hkeeps
      | stopLane stopped rest _ hphase =>
          rw [hphase] at hcore
          cases hcore
          exact stopsCleanly_of_keeps hkeeps
  | readKernel read =>
      constructor <;> intro hphase <;> rw [step, hphase] at hstep <;> cases hstep <;>
        exact hearsRead_of_heeds hdistinct hheeds
  | _ => trivial

/-! ## Runs -/

theorem guarded_step {classes : CharClasses} {event : SupervisionEvent}
    (hguarded : batch.Guarded) (hsound : batch.Sound event)
    (hstep : batch.step classes event = some next) : next.Guarded :=
  have hkept := evidence_step hguarded hsound hstep
  ⟨placed_step hguarded.placed hstep, hkept.1.apart hguarded.apart,
    waiting_step hguarded.placed hguarded.waiting hstep, hkept.2⟩

theorem guarded_fresh (hfresh : batch.Fresh) : batch.Guarded where
  placed :=
    { distinct := by
        have hdistinct := hfresh.distinct
        rwa [cores] at hdistinct
      alone := hfresh.alone
      driven := fun core hdriver => by
        rw [hfresh.initial] at hdriver
        cases hdriver
      standing := by
        rw [Standing, hfresh.initial]
        trivial }
  apart := ⟨hfresh.disjoint, hfresh.numbered⟩
  waiting := by
    rw [Waiting, hfresh.initial]
    intro run hrun
    rw [hfresh.unlaunched run hrun]
    exact ⟨rfl, rfl⟩
  heeds := by
    rw [hfresh.unobserved]
    exact fun _ _ _ hevent => absurd hevent List.not_mem_nil

theorem guarded_of_reachable {classes : CharClasses}
    (hreach : (supervision classes).ReachableBy Sound batch) : batch.Guarded :=
  hreach.invariant (fun _ => guarded_fresh) fun _ _ _ hguarded hsound hstep =>
    guarded_step hguarded hsound hstep

theorem keeps_run {classes : CharClasses} {last : Batch} {events : List SupervisionEvent}
    (hguarded : batch.Guarded) (hallowed : (supervision classes).AllowedRun Sound batch events)
    (hrun : (supervision classes).runEvents batch events = some last) :
    Keeps batch.sup last.sup := by
  induction events generalizing batch with
  | nil =>
      obtain rfl : batch = last := by simpa using hrun
      exact .of_runs rfl
  | cons event rest ih =>
      rw [StepSystem.runEvents_cons, Option.bind_eq_some_iff] at hrun
      obtain ⟨next, hnext, hrest⟩ := hrun
      exact (evidence_step hguarded hallowed.1 hnext).1.trans
        (ih (guarded_step hguarded hallowed.1 hnext) (hallowed.2 next hnext) hrest)

/-- **No evidence is lost in a run of sound steps**: a lane that was named by an event is
convicted, and a lane that is convicted stays so to the end.  A step that is not sound is one
that loses some. -/
theorem evidence_kept (classes : CharClasses) {batch : Batch}
    (hreach : (supervision classes).ReachableBy Sound batch) :
    batch.sup.Heeds batch.sup.observed ∧
      (∀ events last, (supervision classes).AllowedRun Sound batch events →
        (supervision classes).runEvents batch events = some last → Keeps batch.sup last.sup) ∧
      ∀ event next, batch.step classes event = some next →
        (batch.Sound event ↔ Keeps batch.sup next.sup ∧ next.sup.Heeds next.sup.observed) := by
  have hguarded := guarded_of_reachable hreach
  exact ⟨hguarded.heeds, fun _ _ hallowed hrun => keeps_run hguarded hallowed hrun,
    fun _ _ hstep => sound_iff hguarded hstep⟩

/-! ## Lost evidence -/

theorem limit95C_ne_empty : Text.lower "95.0" ≠ [] := by decide

theorem limit95C_numeric : ∀ digit ∈ Text.lower "95.0", digit ∈ "-.0123456789".toList := by
  have hall : ((Text.lower "95.0").all fun digit =>
      decide (digit ∈ "-.0123456789".toList)) = true := by decide
  simpa only [List.all_eq_true, decide_eq_true_eq] using hall

def limit95C : Degrees where
  text := "95.0"
  ne_empty := limit95C_ne_empty
  numeric := limit95C_numeric

/-- The stress of one core of one CPU. -/
def lone : Batch where
  sup :=
    { phase := "stress (CPU 0)"
      maxTemperature := limit95C
      stopOnFirstFailure := false
      runs := [{ lane := { coreId := 0, cpuList := "0", mceCpus := [0] } }] }
  backend := .mprime
  duration := 360

theorem fresh_lone : lone.Fresh where
  distinct := by decide
  disjoint := by
    intro run hrun other hother _ _ _
    rw [List.mem_singleton.mp hrun, List.mem_singleton.mp hother]
  numbered := by
    intro run hrun
    rw [List.mem_singleton.mp hrun]
    decide
  alone := fun _ => le_rfl
  unlaunched := by
    intro run hrun
    rw [List.mem_singleton.mp hrun]
  unobserved := rfl
  initial := rfl

/-- An event is heard as long as no lane has failed. -/
theorem sound_read (event : MCEEvent) (hphase : batch.phase = .readingKernel)
    (hunfailed : ∀ run ∈ batch.sup.runs, run.unfailed = true) :
    batch.Sound (.readKernel (.events [event])) := by
  refine ⟨fun _ => ⟨fun run hrun _ => .inr (.inl (hunfailed run hrun)), trivial⟩,
    fun hclosing => ?_⟩
  rw [hphase] at hclosing
  cases hclosing

theorem sound_terminate (rest : List Nat) {teardown : Teardown}
    (hphase : batch.phase = .terminating (core :: rest))
    (hclean : batch.StopsCleanly core teardown) : batch.Sound (.terminate teardown) := by
  intro other hother _
  rw [hphase] at hother
  cases hother
  exact hclean

/-- A lane that an event has convicted is torn down, and is convicted still. -/
theorem evidence_kept_torn : ∃ batch : Batch, batch.phase = .draining 0 [] ∧
    batch.sup.observed.map MCEEvent.cpu = [0] ∧ batch.sup.Heeds batch.sup.observed := by
  have hstart : (supervision .ascii).ReachableBy Sound lone := .start fresh_lone
  have hsafe := hstart.step (show Sound _ (.checkThermal .safe) from trivial) rfl
  have hlaunched := hsafe.step (show Sound _ (.launch (.started false false)) from trivial) rfl
  have hentering := hlaunched.step (show Sound _ .proceed from trivial) rfl
  have hlooping := hentering.step (show Sound _ .proceed from trivial) rfl
  have hpolling := hlooping.step (show Sound _ .proceed from trivial) rfl
  have hcool := hpolling.step (show Sound _ (.checkThermal .safe) from trivial) rfl
  have hnamed := hcool.step
    (sound_read { cpu := 0, message := "Bank 5" } rfl fun run hrun => by
      obtain rfl := List.mem_singleton.mp hrun
      rfl) rfl
  have hending := hnamed.step (show Sound _ .proceed from trivial) rfl
  have htorn := hending.step (show Sound _ (.terminate {}) from
    sound_terminate [] rfl ⟨fun _ => rfl, fun _ _ => ⟨rfl, rfl, rfl, rfl⟩⟩) rfl
  exact ⟨_, rfl, rfl, (evidence_kept .ascii htorn).1⟩

/-- The classes of the verdicts. -/
def verdictClasses (batch : Batch) : List (Option (Option ErrorType)) :=
  batch.sup.runs.map fun run => run.verdict.map (·.errorType)

/-- From the start of the only lane to the first read of the kernel log. -/
def uptoRead : List SupervisionEvent :=
  [.checkThermal .safe, .launch (.started false false), .proceed, .proceed, .proceed,
    .checkThermal .safe]

/-- The rest of a run that ends with the read, where the teardown meets the fault. -/
def afterRead (fault : Option String) : List SupervisionEvent :=
  [.proceed, .terminate { fault }, .drain (.read "" ""), .proceed, .readKernel (.events []),
    .classify .missing, .proceed]

/-- A lane that an event has convicted is torn down with a fault, and ends as one that could
not be started.  A lane that is named after an event without a CPU ends as unattributed. -/
theorem evidence_lost :
    (∃ before after, (supervision .ascii).Reachable before ∧
      before.verdictClasses = [some (some .mce)] ∧
      (supervision .ascii).runEvents before (afterRead (some "Operation not permitted")) =
        some after ∧
      (after.phase, after.verdictClasses) = (.done, [some (some .startup)])) ∧
    ∃ last, (supervision .ascii).Reachable last ∧
      (last.phase, last.sup.observed.map MCEEvent.cpu, last.verdictClasses) =
        (.done, [-1, 0], [some (some .mceUnattributed)]) := by
  constructor
  · obtain ⟨before, hbefore, hclasses⟩ := Option.map_eq_some_iff.mp
      (show ((supervision .ascii).runEvents lone (uptoRead ++
        [.readKernel (.events [{ cpu := 0, message := "Bank 5" }])])).map verdictClasses =
          some [some (some .mce)] by decide +kernel)
    obtain ⟨after, hafter, hends⟩ := Option.map_eq_some_iff.mp
      (show ((supervision .ascii).runEvents lone ((uptoRead ++
        [.readKernel (.events [{ cpu := 0, message := "Bank 5" }])]) ++
          afterRead (some "Operation not permitted"))).map
            (fun batch => (batch.phase, batch.verdictClasses)) =
          some (.done, [some (some .startup)]) by decide +kernel)
    rw [StepSystem.runEvents_append, hbefore] at hafter
    exact ⟨before, after, .runEvents (.start fresh_lone) (fun _ _ _ => trivial) hbefore,
      hclasses, hafter, hends⟩
  · exact StepSystem.exists_reachable _ _
      (uptoRead ++ [.readKernel (.events [{ cpu := -1, message := "Bank 0" },
        { cpu := 0, message := "Bank 5" }])] ++ afterRead none) fresh_lone (by decide +kernel)

end Batch

end Engine
end CoreCycler
