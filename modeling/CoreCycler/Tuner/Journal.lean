import CoreCycler.Tuner.Advance
import CoreCycler.Tuner.Bisect

/-!
# The CO write-ahead journal

Every offset is journaled before it reaches the hardware, with a mark whether it lies
within what its core is known to survive.  A completed test marks the rows of the
session as survived, and a resume rebuilds what the cores survived from the marked
rows.  There is one row for each core, and every write replaces it.

`stepJournal` is a session as far as the journal is concerned: whatever else the
engine does shows only in the state of its cores.
-/

namespace CoreCycler
namespace Tuner

/-! ## The rows -/

/-- A row of `tuner_co_journal`. -/
structure JournalRow where
  value : Int
  survived : Bool
deriving DecidableEq, Repr

/-- The rows of one session. -/
abbrev CoJournal := CoreId → Option JournalRow

/-- Record the value about to be made resident. -/
def journalCoIntent (journal : CoJournal) (core : CoreId) (value : Int) (survived : Bool) :
    CoJournal :=
  Function.update journal core (some { value, survived })

/-- Mark every resident value as survived, but on the cores with contrary evidence. -/
def journalMarkSurvived (journal : CoJournal) (excludeCores : List CoreId) : CoJournal :=
  fun core => (journal core).map fun row =>
    if core ∈ excludeCores then row else { row with survived := true }

/-- The offsets proven survivable. -/
def journalSurvivedValues (journal : CoJournal) : CoreId → Option Int :=
  fun core => ((journal core).filter JournalRow.survived).map JournalRow.value

section Rows

variable {journal : CoJournal} {core : CoreId} {excludeCores : List CoreId}

theorem journalMarkSurvived_excluded (hcore : core ∈ excludeCores) :
    journalMarkSurvived journal excludeCores core = journal core := by
  simp [journalMarkSurvived, hcore]

theorem journalMarkSurvived_marked {row : JournalRow} (hrow : journal core = some row)
    (hcore : core ∉ excludeCores) :
    journalMarkSurvived journal excludeCores core = some { row with survived := true } := by
  simp [journalMarkSurvived, hrow, hcore]

theorem journalSurvivedValues_none (hrow : journal core = none) :
    journalSurvivedValues journal core = none := by
  simp [journalSurvivedValues, hrow]

theorem journalSurvivedValues_true {value : Int}
    (hrow : journal core = some { value, survived := true }) :
    journalSurvivedValues journal core = some value := by
  rw [journalSurvivedValues, hrow]
  rfl

theorem journalSurvivedValues_false {value : Int}
    (hrow : journal core = some { value, survived := false }) :
    journalSurvivedValues journal core = none := by
  rw [journalSurvivedValues, hrow]
  rfl

end Rows

/-! ## The engine -/

/-- A session, as far as the journal is concerned. -/
structure JournalState where
  /-- The physical cores. -/
  topology : List CoreId
  /-- The range of offsets the SMU takes. -/
  coRange : Int × Int
  /-- The values of `_core_states`. -/
  coreStates : List CoreState
  journal : CoJournal := fun _ => none
  /-- `_co_survived`. -/
  coSurvived : CoreId → Option Int := fun _ => none
  /-- What a verified write left on a core, where nothing has come in between. -/
  resident : CoreId → Option Int := fun _ => none
  /-- The status of the session is `profile_quarantined`. -/
  quarantined : Bool := false

namespace JournalState

def coreIds (state : JournalState) : List CoreId := state.coreStates.map CoreState.coreId

/-- The most aggressive offset a core is known to survive; stock when it is none. -/
def survivedAt (state : JournalState) (core : CoreId) : Int := (state.coSurvived core).getD 0

end JournalState

/-- Write an offset to a core.  An offset out of range is refused before it is journaled;
`accepted` tells whether one of three attempts was taken and read back.  After a refused
write every caller restores stock, and pauses or quarantines the session. -/
def writeCoVerified (config : TunerConfig) (state : JournalState) (core : CoreId)
    (offset : Int) (accepted : Bool) : JournalState :=
  if state.coRange.1 ≤ offset ∧ offset ≤ state.coRange.2 then
    let survived := !config.isMoreAggressive offset (state.survivedAt core)
    { state with
      journal := journalCoIntent state.journal core offset survived
      resident := Function.update state.resident core (if accepted then some offset else none) }
  else
    state

section Writes

variable {config : TunerConfig} {state : JournalState} {core : CoreId} {offset : Int}
  {accepted : Bool}

theorem writeCoVerified_refused
    (hrange : ¬(state.coRange.1 ≤ offset ∧ offset ≤ state.coRange.2)) :
    writeCoVerified config state core offset accepted = state := if_neg hrange

theorem writeCoVerified_journal (hrange : state.coRange.1 ≤ offset ∧ offset ≤ state.coRange.2) :
    (writeCoVerified config state core offset accepted).journal =
      journalCoIntent state.journal core offset
        (!config.isMoreAggressive offset (state.survivedAt core)) := by
  rw [writeCoVerified, if_pos hrange]

theorem writeCoVerified_resident (hrange : state.coRange.1 ≤ offset ∧ offset ≤ state.coRange.2) :
    (writeCoVerified config state core offset accepted).resident =
      Function.update state.resident core (if accepted then some offset else none) := by
  rw [writeCoVerified, if_pos hrange]

@[simp] theorem writeCoVerified_coSurvived :
    (writeCoVerified config state core offset accepted).coSurvived = state.coSurvived := by
  rw [writeCoVerified]
  split <;> rfl

@[simp] theorem writeCoVerified_survivedAt :
    (writeCoVerified config state core offset accepted).survivedAt = state.survivedAt := by
  funext other
  rw [JournalState.survivedAt, writeCoVerified_coSurvived, JournalState.survivedAt]

@[simp] theorem writeCoVerified_coreStates :
    (writeCoVerified config state core offset accepted).coreStates = state.coreStates := by
  rw [writeCoVerified]
  split <;> rfl

end Writes

def restoreStockVerified (config : TunerConfig) (state : JournalState)
    (accepted : CoreId → Bool) : JournalState :=
  state.topology.foldl (fun state core => writeCoVerified config state core 0 (accepted core))
    state

def revertCoreToBaseline (config : TunerConfig) (state : JournalState) (core : CoreId)
    (accepted : Bool) : JournalState :=
  match state.coreStates.find? (·.coreId = core) with
  | none => state
  | some cs => writeCoVerified config state core cs.baselineOffset accepted

def quarantineSession (config : TunerConfig) (state : JournalState)
    (accepted : CoreId → Bool) : JournalState :=
  { restoreStockVerified config state accepted with
    coreStates := state.coreStates.map fun cs => { cs with inTest := false }
    quarantined := true }

/-- Mark the journal once a test is over, and merge the survived values.  `foreign` are the
cores a machine check named during the test, `unattributed` that one named no core. -/
def keepSurvived (config : TunerConfig) (state : JournalState) (unattributed : Bool)
    (foreign : List CoreId) : JournalState :=
  if unattributed then
    state
  else
    let journal := journalMarkSurvived state.journal foreign
    { state with
      journal := journal
      coSurvived := fun core =>
        match journalSurvivedValues journal core with
        | some value =>
            if config.isMoreAggressive value (state.survivedAt core) then some value
            else state.coSurvived core
        | none => state.coSurvived core }

theorem keepSurvived_coSurvived (config : TunerConfig) (state : JournalState)
    (foreign : List CoreId) (core : CoreId) :
    (keepSurvived config state false foreign).coSurvived core =
      match journalSurvivedValues (journalMarkSurvived state.journal foreign) core with
      | some value =>
          if config.isMoreAggressive value (state.survivedAt core) then some value
          else state.coSurvived core
      | none => state.coSurvived core := rfl

/-- Re-open a quarantined session on proven ground only. -/
def reengageQuarantined (config : TunerConfig) (state : JournalState) : JournalState :=
  { state with
    coreStates := state.coreStates.map fun cs =>
      reengageCore config cs (state.survivedAt cs.coreId)
    quarantined := false }

/-- Resume a session: rebuild what was survived, and re-open it if it was quarantined.  A
new process knows nothing of what is resident until it has restored the baselines. -/
def resumeJournal (config : TunerConfig) (state : JournalState) (sameProcess : Bool) :
    JournalState :=
  let rebuilt :=
    { state with
      coSurvived := journalSurvivedValues state.journal
      resident := if sameProcess then state.resident else fun _ => none }
  if state.quarantined then reengageQuarantined config rebuilt else rebuilt

@[simp] theorem restoreStockVerified_coreStates (config : TunerConfig) (state : JournalState)
    (accepted : CoreId → Bool) :
    (restoreStockVerified config state accepted).coreStates = state.coreStates := by
  rw [restoreStockVerified]
  generalize state.topology = cores
  induction cores generalizing state with
  | nil => rfl
  | cons core rest ih => rw [List.foldl_cons, ih, writeCoVerified_coreStates]

@[simp] theorem quarantineSession_coreIds (config : TunerConfig) (state : JournalState)
    (accepted : CoreId → Bool) :
    (quarantineSession config state accepted).coreIds = state.coreIds := by
  simp [quarantineSession, JournalState.coreIds, Function.comp_def]

@[simp] theorem resumeJournal_coreIds (config : TunerConfig) (state : JournalState)
    (sameProcess : Bool) : (resumeJournal config state sameProcess).coreIds = state.coreIds := by
  simp only [resumeJournal]
  split
  · simp [reengageQuarantined, reengageCore, JournalState.coreIds, Function.comp_def]
  · rfl

@[simp] theorem resumeJournal_resident (config : TunerConfig) (state : JournalState)
    (sameProcess : Bool) :
    (resumeJournal config state sameProcess).resident =
      if sameProcess then state.resident else fun _ => none := by
  simp only [resumeJournal]
  split <;> rfl

@[simp] theorem resumeJournal_journal (config : TunerConfig) (state : JournalState)
    (sameProcess : Bool) : (resumeJournal config state sameProcess).journal = state.journal := by
  simp only [resumeJournal]
  split <;> rfl

@[simp] theorem resumeJournal_coSurvived (config : TunerConfig) (state : JournalState)
    (sameProcess : Bool) :
    (resumeJournal config state sameProcess).coSurvived = journalSurvivedValues state.journal := by
  simp only [resumeJournal]
  split <;> rfl

/-- Everything that happens to the journal, and to what it is read for. -/
inductive JournalEvent
  /-- The search, a verdict or a crash changes the state of a core. -/
  | move (cs : CoreState)
  /-- An offset is written to a core. -/
  | write (core : CoreId) (offset : Int) (accepted : Bool)
  /-- A core is reverted to its baseline, after a test or on resume. -/
  | revert (core : CoreId) (accepted : Bool)
  /-- A test that could start is over. -/
  | testFinished (unattributed : Bool) (foreign : List CoreId)
  | quarantine (accepted : CoreId → Bool)
  /-- The session is resumed, in the process it was paused in or in a new one. -/
  | resume (sameProcess : Bool)

/-- Put a core state in the place of the one with its id. -/
def JournalState.moveCore (state : JournalState) (cs : CoreState) : JournalState :=
  { state with
    coreStates := state.coreStates.map fun old => if old.coreId = cs.coreId then cs else old }

@[simp] theorem moveCore_coreIds (state : JournalState) (cs : CoreState) :
    (state.moveCore cs).coreIds = state.coreIds := by
  rw [JournalState.coreIds, JournalState.moveCore, List.map_map]
  refine List.map_congr_left fun old _ => ?_
  by_cases hsame : old.coreId = cs.coreId <;> simp [hsame]

/-- The session after an event.  A test is launched only once every core has been put
where the engine wants it. -/
def stepJournal (config : TunerConfig) (state : JournalState) :
    JournalEvent → Option JournalState
  | .move cs => some (state.moveCore cs)
  | .write core offset accepted => some (writeCoVerified config state core offset accepted)
  | .revert core accepted => some (revertCoreToBaseline config state core accepted)
  | .testFinished unattributed foreign =>
      if ∀ core ∈ state.coreIds, (state.resident core).isSome then
        some (keepSurvived config state unattributed foreign)
      else
        none
  | .quarantine accepted => some (quarantineSession config state accepted)
  | .resume sameProcess => some (resumeJournal config state sameProcess)

end Tuner
end CoreCycler
