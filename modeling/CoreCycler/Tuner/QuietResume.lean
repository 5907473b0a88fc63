import CoreCycler.Tuner.HuntReplay
import CoreCycler.Tuner.Resume

/-!
# Resuming without a crash

Every ordinary slot persists its crash context, and everything that ends a process
leaves it behind.  A resume that follows no crash has nobody to blame, whatever it
finds; `BlamesNobody` says what that comes to, and `resume_blames_nobody` when a resume
achieves it.
-/

namespace CoreCycler
namespace Tuner

open Bisect

/-! ## What a quiet resume is -/

/-- The resume follows no crash: it is in the same boot, or the last one ended cleanly. -/
def NoCrash (env : ResumeEnvironment) (state : SessionState) : Prop :=
  rebootedSince state.bootId env.bootId = false ∨ env.lastBootEndedCleanly = true

/-- The persisted hunt had been started. -/
def HuntStarted (state : SessionState) : Prop :=
  ∃ hunt, state.huntState.fromJson = .ok (some hunt) ∧ hunt.started = true

/-- What is persisted is the crash context of an ordinary slot. -/
def CrashContext (state : SessionState) (hunt : HuntState) : Prop :=
  state.huntState.fromJson = .ok (some hunt) ∧ hunt.started = false

/-- What crash handling could change about a core: its phase, its offsets, its bounds and
its crash count. -/
def searchRecord (cs : CoreState) :=
  (cs.phase, cs.currentOffset, cs.bestOffset, cs.provenOffset, cs.coarseFailOffset,
    cs.baselineOffset, cs.backoffFailBound, cs.backoffPassBound, cs.crashCount)

/-- The cores of a session that is refused, of one that is stopped, and of one that is
continued, where only re-engagement and the missing evidence of a confirmation count. -/
def quietCores (config : TunerConfig) (env : ResumeEnvironment) (state : SessionState) :
    List (List CoreState) :=
  let reengaged := (resumeJournal config state.engine env.sameProcess).coreStates
  [state.coreStates, reengaged,
    reengaged.map fun cs =>
      reconcileConfirmed config { core := cs, log := state.testLog cs.coreId }]

/-- A resume blames nobody for an interruption that was no crash: it hunts only where a
hunt had been started, and then takes up its probe unanswered, with nobody charged on
the way; a crash context is dropped where the session is continued. -/
structure BlamesNobody (config : TunerConfig) (env : ResumeEnvironment) (state : SessionState)
    (resumed : Resumed) : Prop where
  unopened : resumed.hunted ≠ none → HuntStarted state
  untouched : resumed.hunted = none → ∃ cores ∈ quietCores config env state,
    resumed.state.coreStates.map searchRecord = cores.map searchRecord
  unanswered : ∀ hunt, resumed.hunted = some hunt → ∃ saved before,
    state.huntState.fromJson = .ok (some saved) ∧ hunt = { saved with armed := false } ∧
      resumed = runNextHuntSlot config env before hunt ∧
      ∃ cores ∈ quietCores config env state,
        before.coreStates.map searchRecord = cores.map searchRecord
  discarded : ∀ hunt, CrashContext state hunt →
    resumed.next = .search ∨ resumed.next = .validation → resumed.state.huntState = .empty

/-- The resume gets as far as continuing the session. -/
structure Continues (config : TunerConfig) (env : ResumeEnvironment) (state : SessionState) :
    Prop where
  admitted : env.refuses = false
  usable : unusable env state.engine = false
  restored : baselineFailures (resumeJournal config state.engine env.sameProcess)
    env.baselineAccepted = []

variable {afterCrash : SessionState → Option HuntState → Resumed} {config : TunerConfig}
  {env : ResumeEnvironment} {state : SessionState}

/-! ## The steps of a resume -/

@[simp] theorem pause_coreStates : state.pause.coreStates = state.coreStates := by
  rw [SessionState.pause]
  split <;> rfl

@[simp] theorem restoreBaselines_coreStates (accepted : CoreId → Bool) :
    (restoreBaselines config state accepted).coreStates = state.coreStates := by
  have hfold : ∀ (cores : List CoreState) (engine : JournalState),
      (cores.foldl (fun engine cs =>
        writeCoVerified config engine cs.coreId cs.baselineOffset (accepted cs.coreId))
        engine).coreStates = engine.coreStates := by
    intro cores
    induction cores with
    | nil => exact fun _ => rfl
    | cons cs rest ih =>
        intro engine
        rw [List.foldl_cons, ih, writeCoVerified_coreStates]
  exact hfold state.coreStates state.engine

theorem reconcileConfirmed_baseline {battery : BatteryState} :
    (reconcileConfirmed config battery).coreId = battery.core.coreId ∧
      (reconcileConfirmed config battery).baselineOffset = battery.core.baselineOffset := by
  simp only [reconcileConfirmed]
  split
  · exact ⟨rfl, rfl⟩
  · split_ifs <;> exact ⟨rfl, rfl⟩

/-- Evidence is looked for whether or not a core was under test. -/
theorem reconcileConfirmed_inTest {cs : CoreState} {log : List TestRow} :
    searchRecord (reconcileConfirmed config { core := { cs with inTest := false }, log }) =
      searchRecord (reconcileConfirmed config { core := cs, log }) := by
  simp only [reconcileConfirmed]
  split
  · rfl
  · split_ifs <;> rfl

/-- The session once it is admitted, before the interruption is looked at. -/
def admitted (config : TunerConfig) (env : ResumeEnvironment) (state : SessionState) :
    SessionState :=
  { state with engine := resumeJournal config state.engine env.sameProcess }

/-- The session once the interruption is set aside and the evidence reconciled. -/
def reconciled (config : TunerConfig) (env : ResumeEnvironment) (state : SessionState)
    (saved : Option HuntState) : SessionState :=
  { reconcileConfirmedEvidence config
      (setAsideInterruption (admitted config env state) saved).1 with
    bootId := env.bootId }

@[simp] theorem setAsideInterruption_coreStates (saved : Option HuntState) :
    (setAsideInterruption state saved).1.coreStates =
      state.coreStates.map fun cs => { cs with inTest := false } := by
  cases saved with
  | none => rfl
  | some hunt =>
      simp only [setAsideInterruption]
      split
      · simp [requeueHuntProbe, clearAllInTest, SessionState.coreStates, SessionState.mapCores]
      · rfl

theorem setAsideInterruption_hunt (saved : Option HuntState) :
    (setAsideInterruption state saved).2 = saved.map fun hunt => { hunt with armed := false } := by
  cases saved with
  | none => rfl
  | some hunt =>
      simp only [setAsideInterruption, Option.map_some]
      split
      · rfl
      next harmed => exact congrArg some (by rw [← Bool.eq_false_of_not_eq_true harmed])

theorem setAsideInterruption_testLog (saved : Option HuntState) :
    (setAsideInterruption state saved).1.testLog = state.testLog := by
  cases saved with
  | none => rfl
  | some hunt =>
      simp only [setAsideInterruption]
      split <;> rfl

theorem reconciled_coreStates (saved : Option HuntState) :
    (reconciled config env state saved).coreStates =
      (resumeJournal config state.engine env.sameProcess).coreStates.map fun cs =>
        reconcileConfirmed config
          { core := { cs with inTest := false }, log := state.testLog cs.coreId } := by
  have hcores : (reconciled config env state saved).coreStates =
      (setAsideInterruption (admitted config env state) saved).1.coreStates.map fun cs =>
        reconcileConfirmed config
          { core := cs
            log := (setAsideInterruption (admitted config env state) saved).1.testLog cs.coreId } :=
    rfl
  rw [hcores, setAsideInterruption_coreStates, setAsideInterruption_testLog, List.map_map]
  rfl

/-- Whoever is reconciled, nobody's search record shows who was under test. -/
theorem reconciled_searchRecord (saved : Option HuntState) :
    (reconciled config env state saved).coreStates.map searchRecord =
      ((resumeJournal config state.engine env.sameProcess).coreStates.map fun cs =>
        reconcileConfirmed config { core := cs, log := state.testLog cs.coreId }).map
        searchRecord := by
  rw [reconciled_coreStates, List.map_map, List.map_map]
  exact List.map_congr_left fun cs _ => reconcileConfirmed_inTest

theorem setAsideInterruption_coRange (saved : Option HuntState) :
    (setAsideInterruption state saved).1.engine.coRange = state.engine.coRange := by
  cases saved with
  | none => rfl
  | some hunt =>
      simp only [setAsideInterruption]
      split <;> rfl

theorem reconciled_baselineFailures (saved : Option HuntState) (accepted : CoreId → Bool) :
    baselineFailures (reconciled config env state saved).engine accepted =
      baselineFailures (resumeJournal config state.engine env.sameProcess) accepted := by
  have hcores : (reconciled config env state saved).engine.coreStates = _ :=
    reconciled_coreStates saved
  have hrange : (reconciled config env state saved).engine.coRange =
      (resumeJournal config state.engine env.sameProcess).coRange :=
    setAsideInterruption_coRange saved
  simp only [baselineFailures, hcores, hrange, List.filter_map, List.map_map, Function.comp_def,
    reconcileConfirmed_baseline.1, reconcileConfirmed_baseline.2]

/-! ## The ways a resume ends -/

theorem resume_refused (hrefused : env.refuses = true) :
    resume afterCrash config env state = { state, next := .refused } := by
  rw [resume, if_pos hrefused]

theorem resume_unusable (hadmitted : env.refuses = false)
    (hunusable : unusable env state.engine = true) :
    resume afterCrash config env state = { state := state.pause, next := .halted } := by
  rw [resume, if_neg (by simp [hadmitted]), if_pos hunusable]

theorem resume_unreadable (hadmitted : env.refuses = false)
    (husable : unusable env state.engine = false) {message : String}
    (hread : state.huntState.fromJson = .error message) :
    resume afterCrash config env state =
      { state := (admitted config env state).pause, next := .halted } := by
  simp only [resume, hadmitted, husable, hread]
  rfl

theorem resume_quiet (hadmitted : env.refuses = false)
    (husable : unusable env state.engine = false) (hquiet : NoCrash env state)
    {saved : Option HuntState} (hread : state.huntState.fromJson = .ok saved) :
    resume afterCrash config env state =
      continueAfter config env (setAsideInterruption (admitted config env state) saved).1
        (saved.map fun hunt => { hunt with armed := false }) := by
  have hcalm : ¬((rebootedSince state.bootId env.bootId && !state.engine.quarantined) = true ∧
      (!env.lastBootEndedCleanly) = true) := by
    rcases hquiet with hboot | hclean
    · simp [hboot]
    · simp [hclean]
  rw [← setAsideInterruption_hunt]
  simp only [resume, hadmitted, husable, hread, if_neg hcalm]
  rfl

theorem continueAfter_halted {saved hunt : Option HuntState}
    (hfailed : baselineFailures (resumeJournal config state.engine env.sameProcess)
      env.baselineAccepted ≠ []) :
    continueAfter config env (setAsideInterruption (admitted config env state) saved).1 hunt =
      { state := (restoreBaselines config (reconciled config env state saved)
          env.baselineAccepted).pause
        next := .halted } := by
  rw [← reconciled_baselineFailures saved] at hfailed
  exact if_pos hfailed

theorem continueAfter_restored {saved hunt : Option HuntState}
    (hrestored : baselineFailures (resumeJournal config state.engine env.sameProcess)
      env.baselineAccepted = []) :
    continueAfter config env (setAsideInterruption (admitted config env state) saved).1 hunt =
      match hunt with
      | some hunt =>
          runNextHuntSlot config env
            (restoreBaselines config (reconciled config env state saved) env.baselineAccepted) hunt
      | none =>
          continueSession config
            (restoreBaselines config (reconciled config env state saved)
              env.baselineAccepted) := by
  rw [← reconciled_baselineFailures saved] at hrestored
  exact if_neg (not_not.mpr hrestored)

@[simp] theorem runNextHuntSlot_hunted {hunt : HuntState} :
    (runNextHuntSlot config env state hunt).hunted = some hunt := by
  simp only [runNextHuntSlot]
  split <;> rfl

/-! ## Who is blamed -/

/-- A resume that hunts nobody blames nobody, if it leaves the cores alone and the column
empty where it goes on. -/
theorem BlamesNobody.of_unhunted {resumed : Resumed} (hhunted : resumed.hunted = none)
    {cores : List CoreState} (hcores : cores ∈ quietCores config env state)
    (hrecord : resumed.state.coreStates.map searchRecord = cores.map searchRecord)
    (hdiscarded : resumed.next = .search ∨ resumed.next = .validation →
      resumed.state.huntState = .empty) :
    BlamesNobody config env state resumed where
  unopened hne := absurd hhunted hne
  untouched _ := ⟨cores, hcores, hrecord⟩
  unanswered hunt hhunt := by simp [hhunted] at hhunt
  discarded _ _ hnext := hdiscarded hnext

theorem blamesNobody_refused (hrefused : env.refuses = true) :
    BlamesNobody config env state (resume afterCrash config env state) := by
  rw [resume_refused hrefused]
  exact .of_unhunted rfl List.mem_cons_self rfl (by simp)

theorem blamesNobody_unusable (hadmitted : env.refuses = false)
    (hunusable : unusable env state.engine = true) :
    BlamesNobody config env state (resume afterCrash config env state) := by
  rw [resume_unusable hadmitted hunusable]
  exact .of_unhunted rfl List.mem_cons_self (by rw [pause_coreStates]) (by simp)

theorem blamesNobody_unreadable (hadmitted : env.refuses = false)
    (husable : unusable env state.engine = false) {message : String}
    (hread : state.huntState.fromJson = .error message) :
    BlamesNobody config env state (resume afterCrash config env state) := by
  rw [resume_unreadable hadmitted husable hread]
  exact .of_unhunted rfl (List.mem_cons_of_mem _ List.mem_cons_self)
    (by rw [pause_coreStates]; rfl) (by simp)

theorem reconciled_mem_quietCores :
    ((resumeJournal config state.engine env.sameProcess).coreStates.map fun cs =>
        reconcileConfirmed config { core := cs, log := state.testLog cs.coreId }) ∈
      quietCores config env state :=
  List.mem_cons_of_mem _ (List.mem_cons_of_mem _ List.mem_cons_self)

theorem blamesNobody_halted (hquiet : NoCrash env state) (hadmitted : env.refuses = false)
    (husable : unusable env state.engine = false)
    {saved : Option HuntState} (hread : state.huntState.fromJson = .ok saved)
    (hfailed : baselineFailures (resumeJournal config state.engine env.sameProcess)
      env.baselineAccepted ≠ []) :
    BlamesNobody config env state (resume afterCrash config env state) := by
  rw [resume_quiet hadmitted husable hquiet hread, continueAfter_halted hfailed]
  refine .of_unhunted rfl reconciled_mem_quietCores ?_ (by simp)
  rw [pause_coreStates, restoreBaselines_coreStates, reconciled_searchRecord]

theorem blamesNobody_unhunted (hquiet : NoCrash env state)
    (hcontinues : Continues config env state) (hread : state.huntState.fromJson = .ok none) :
    BlamesNobody config env state (resume afterCrash config env state) := by
  rw [resume_quiet hcontinues.admitted hcontinues.usable hquiet hread, Option.map_none,
    continueAfter_restored hcontinues.restored]
  refine .of_unhunted rfl reconciled_mem_quietCores ?_ fun _ => rfl
  exact (congrArg _ (restoreBaselines_coreStates _)).trans (reconciled_searchRecord none)

/-- A persisted hunt is taken up again, its probe unanswered. -/
theorem resume_hunted (hquiet : NoCrash env state) (hcontinues : Continues config env state)
    {hunt : HuntState} (hread : state.huntState.fromJson = .ok (some hunt)) :
    resume afterCrash config env state =
      runNextHuntSlot config env
        (restoreBaselines config (reconciled config env state (some hunt)) env.baselineAccepted)
        { hunt with armed := false } := by
  rw [resume_quiet hcontinues.admitted hcontinues.usable hquiet hread, Option.map_some,
    continueAfter_restored hcontinues.restored]

theorem blamesNobody_started (hquiet : NoCrash env state)
    (hcontinues : Continues config env state) {hunt : HuntState}
    (hread : state.huntState.fromJson = .ok (some hunt)) (hstarted : hunt.started = true) :
    BlamesNobody config env state (resume afterCrash config env state) := by
  rw [resume_hunted hquiet hcontinues hread]
  constructor
  case unopened => exact fun _ => ⟨hunt, hread, hstarted⟩
  case untouched => simp
  case unanswered =>
    intro taken htaken
    rw [runNextHuntSlot_hunted, Option.some.injEq] at htaken
    refine ⟨hunt, _, hread, htaken.symm, by rw [htaken], _, reconciled_mem_quietCores, ?_⟩
    rw [restoreBaselines_coreStates, reconciled_searchRecord]
  case discarded =>
    intro other hcontext _
    obtain rfl : hunt = other := by simpa [hread] using hcontext.1
    exact absurd hstarted (by simp [hcontext.2])

/-- A crash context that is taken up opens a hunt nothing started. -/
theorem not_blamesNobody_context (hquiet : NoCrash env state)
    (hcontinues : Continues config env state) {hunt : HuntState}
    (hcontext : CrashContext state hunt) :
    ¬ BlamesNobody config env state (resume afterCrash config env state) := by
  intro hblames
  obtain ⟨saved, hread, hstarted⟩ := hblames.unopened
    (by simp [resume_hunted hquiet hcontinues hcontext.1])
  obtain rfl : hunt = saved := by simpa [hread] using hcontext.1.symm
  exact absurd hstarted (by simp [hcontext.2])

/-- Every ordinary slot leaves a crash context behind. -/
theorem crashContext_of_checkpoint {coreIds : List CoreId} {vector : List (CoreId × Int)}
    {launched : Launched} {hunt : HuntState}
    (hcheckpoint : checkpointWorker coreIds vector launched = .ok (some hunt))
    (hcolumn : state.huntState = .document hunt) : CrashContext state hunt := by
  obtain ⟨-, hcheck, -⟩ := checkpointWorker_opened hcheckpoint
  refine ⟨?_, checkpointWorker_unstarted hcheckpoint⟩
  rw [hcolumn, HuntColumn.fromJson, hcheck]
  rfl

/-- **A resume without a crash.**  It blames nobody exactly when no crash context of an
ordinary slot is left behind, or the resume stops before it would be taken up. -/
theorem resume_blames_nobody (hquiet : NoCrash env state) :
    BlamesNobody config env state (resume afterCrash config env state) ↔
      ∀ hunt, CrashContext state hunt → ¬ Continues config env state := by
  constructor
  · intro hblames hunt hcontext hcontinues
    exact not_blamesNobody_context hquiet hcontinues hcontext hblames
  · intro hleft
    cases hadmitted : env.refuses with
    | true => exact blamesNobody_refused hadmitted
    | false =>
        cases husable : unusable env state.engine with
        | true => exact blamesNobody_unusable hadmitted husable
        | false =>
            cases hread : state.huntState.fromJson with
            | error message => exact blamesNobody_unreadable hadmitted husable hread
            | ok saved =>
                by_cases hrestored : baselineFailures
                    (resumeJournal config state.engine env.sameProcess) env.baselineAccepted = []
                · have hcontinues : Continues config env state :=
                    ⟨hadmitted, husable, hrestored⟩
                  cases saved with
                  | none => exact blamesNobody_unhunted hquiet hcontinues hread
                  | some hunt =>
                      have hstarted : hunt.started = true := by
                        by_contra hnot
                        exact hleft hunt ⟨hread, Bool.eq_false_of_not_eq_true hnot⟩ hcontinues
                      exact blamesNobody_started hquiet hcontinues hread hstarted
                · exact blamesNobody_halted hquiet hadmitted husable hread hrestored

/-- Two cores, of which core 0 was being searched at -5. -/
def searchedAtFive : JournalState where
  topology := [0, 1]
  coRange := (-50, 30)
  coreStates :=
    [{ coreId := 0, phase := .coarseSearch, currentOffset := -5 }, { coreId := 1 }]

/-- The session of these cores, with `column` persisted in the boot it is resumed in. -/
def interrupted (column : HuntColumn) : SessionState :=
  { engine := searchedAtFive, bootId := "boot", huntState := column }

/-- What the slot on core 0 has persisted when its worker starts. -/
def slotContext : HuntState :=
  (((launchSlot twoCores (.stage1 0)).bind fun launched =>
    (checkpointWorker twoCores.coreIds [(0, -5), (1, 0)] launched).toOption.bind id)).getD {}

/-- What follows a crash does not matter here. -/
def stopAfterCrash (state : SessionState) (_ : Option HuntState) : Resumed :=
  { state, next := .halted }

/-- A session closed between two slots is resumed without blame. -/
theorem resume_blames_nobody_between_slots :
    BlamesNobody {} { bootId := "boot" } (interrupted .empty)
      (resume stopAfterCrash {} { bootId := "boot" } (interrupted .empty)) := by
  refine (resume_blames_nobody (.inl rfl)).mpr fun hunt hcontext => ?_
  simp [CrashContext, interrupted, HuntColumn.fromJson] at hcontext

theorem slotContext_checkpointed : ∃ launched, launchSlot twoCores (.stage1 0) = some launched ∧
    checkpointWorker twoCores.coreIds [(0, -5), (1, 0)] launched = .ok (some slotContext) := by
  have hcontext : ((launchSlot twoCores (.stage1 0)).bind fun launched =>
      (checkpointWorker twoCores.coreIds [(0, -5), (1, 0)] launched).toOption.bind id) =
        some slotContext := by
    decide +kernel
  obtain ⟨launched, hlaunch, hpersisted⟩ := Option.bind_eq_some_iff.mp hcontext
  refine ⟨launched, hlaunch, ?_⟩
  cases hcheckpoint : checkpointWorker twoCores.coreIds [(0, -5), (1, 0)] launched with
  | error message => simp [hcheckpoint, Except.toOption] at hpersisted
  | ok persisted => simpa [hcheckpoint, Except.toOption] using hpersisted

/-- The window is closed while the slot on core 0 runs; the next resume, in the same boot,
charges the core with a crash. -/
theorem unfinished_slot_blamed :
    ({} : TunerConfig).Valid ∧
    (∃ launched, launchSlot twoCores (.stage1 0) = some launched ∧
      checkpointWorker twoCores.coreIds [(0, -5), (1, 0)] launched = .ok (some slotContext)) ∧
    NoCrash { bootId := "boot" } (interrupted (.document slotContext)) ∧
    ∃ resumed, resumed = resume stopAfterCrash {} { bootId := "boot" }
        (interrupted (.document slotContext)) ∧
      ¬ BlamesNobody {} { bootId := "boot" } (interrupted (.document slotContext)) resumed ∧
      resumed.state.coreStates.map (fun cs => (cs.currentOffset, cs.crashCount)) =
        [(-4, 1), (0, 0)] := by
  obtain ⟨launched, hlaunch, hcheckpoint⟩ := slotContext_checkpointed
  have hquiet : NoCrash { bootId := "boot" } (interrupted (.document slotContext)) := .inl rfl
  have hcontinues : Continues {} { bootId := "boot" } (interrupted (.document slotContext)) :=
    ⟨rfl, by decide +kernel, by decide +kernel⟩
  exact ⟨by decide +kernel, ⟨launched, hlaunch, hcheckpoint⟩, hquiet, _, rfl,
    not_blamesNobody_context hquiet hcontinues (crashContext_of_checkpoint hcheckpoint rfl),
    by decide +kernel⟩

end Tuner
end CoreCycler
