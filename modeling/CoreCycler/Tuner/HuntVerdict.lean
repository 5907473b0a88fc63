import CoreCycler.Tuner.Battery
import CoreCycler.Tuner.Bisect
import CoreCycler.Tuner.Journal

/-!
# Acting on a hunt

`resolveHunt` ends a hunt: the culprits it found are charged with the crash at the
offset that was resident; a hunt that reproduced nothing credits suspicion to the live
cores, and charges the one that stands out.  `SessionState` is the session row, the test
log and the engine, as far as that and a resume read or write them.
-/

namespace CoreCycler
namespace Tuner

open Bisect

/-! ## The session -/

/-- The column `hunt_state`: empty, text no version reads, or a document. -/
inductive HuntColumn
  | empty
  | unreadable (message : String)
  | document (hunt : HuntState)
deriving DecidableEq, Repr

/-- `HuntState.from_json`. -/
def HuntColumn.fromJson : HuntColumn → Except String (Option HuntState)
  | empty => .ok none
  | unreadable message => .error (invalid message)
  | document hunt => do
      validateState hunt
      return some hunt

/-- A session as its row, its log and the engine hold it. -/
structure SessionState where
  engine : JournalState
  bootId : String := ""
  huntState : HuntColumn := .empty
  resumeCrashStreak : Nat := 0
  unattributedCrashes : Nat := 0
  testLog : CoreId → List TestRow := fun _ => []
  /-- The core of the last real row of the test log. -/
  lastTestedCore : Option CoreId := none
  /-- The status is `platform_fault`. -/
  platformFault : Bool := false
  paused : Bool := false

namespace SessionState

def coreStates (state : SessionState) : List CoreState := state.engine.coreStates

/-- Pause, unless the session is closed. -/
def pause (state : SessionState) : SessionState :=
  if state.platformFault ∨ state.engine.quarantined then state else { state with paused := true }

/-- Change the state of every core. -/
def mapCores (state : SessionState) (change : CoreState → CoreState) : SessionState :=
  { state with
    engine := { state.engine with coreStates := state.engine.coreStates.map change } }

@[simp] theorem mapCores_coreStates (state : SessionState) (change : CoreState → CoreState) :
    (state.mapCores change).coreStates = state.coreStates.map change := rfl

end SessionState

/-- Clear every `in_test` flag: the crash has been handled, or ruled out. -/
def clearAllInTest (state : SessionState) : SessionState :=
  state.mapCores fun cs => { cs with inTest := false }

/-! ## Blame -/

/-- The offset vector the machine would run with. -/
def liveVector (coreStates : List CoreState) : List (CoreId × Int) :=
  coreStates.map fun cs => (cs.coreId, cs.bestOffset.getD cs.baselineOffset)

/-- Charge a core with the crash, at the offset that was resident. -/
def blameCore (config : TunerConfig) (state : SessionState) (core : CoreId)
    (resident : Option Int) (steps : Int) : SessionState :=
  match state.coreStates.find? (·.coreId = core) with
  | none => state
  | some cs =>
      let crashed := resident.getD (cs.bestOffset.getD cs.baselineOffset)
      let outcome := penalizeResident config cs crashed (some steps) true
      let blamed := { outcome.core with suspicion := 0 }
      let row : TestRow := { offset := crashed, passed := false, timed := false }
      let moved :=
        { state with
          engine := state.engine.moveCore blamed
          testLog := Function.update state.testLog core (state.testLog core ++ [row]) }
      if outcome.paused then moved.pause else moved

/-! ## Suspicion -/

/-- The middle of the depths of the live offsets. -/
def medianLiveDepth (vector : List (CoreId × Int)) : ℚ :=
  let live := (vector.map Prod.snd).filter (· ≠ 0)
  let depths := (live.map Int.natAbs).insertionSort (· ≤ ·)
  let mid := depths.length / 2
  if depths = [] then 0
  else if depths.length % 2 = 1 then depths.getD mid 0
  else ((depths.getD (mid - 1) 0 : ℚ) + depths.getD mid 0) / 2

/-- Accumulate blame from the vector that was live at the crash. -/
def creditSuspicion (state : SessionState) (vector : List (CoreId × Int)) : SessionState :=
  let live := if vector = [] then liveVector state.coreStates else vector
  let median := medianLiveDepth live
  state.mapCores fun cs =>
    let offset := (live.lookup cs.coreId).getD 0
    if offset = 0 then
      cs
    else
      let depth : ℚ := max 1 ((offset.natAbs : ℚ) - median + 1)
      let role : ℚ := if state.lastTestedCore = some cs.coreId then 2 else 1
      { cs with suspicion := cs.suspicion + depth * role }

/-- The core to demote, `none` when the field is too close to call. -/
def suspicionVerdict (config : TunerConfig) (state : SessionState) : Option CoreId :=
  if (state.unattributedCrashes : Int) < config.suspicionMinFailures then
    none
  else
    match state.coreStates.insertionSort fun cs other => other.suspicion ≤ cs.suspicion with
    | first :: second :: _ =>
        if first.suspicion ≤ 0 ∨
            0 < second.suspicion ∧
              first.suspicion < second.suspicion * config.suspicionSeparation then
          none
        else
          some first.coreId
    | _ => none

/-! ## The end of a hunt -/

/-- Fail the step the machine died on, when it was the only load and is still the
core's. -/
def failUnansweredStep (config : TunerConfig) (state : SessionState) (hunt : HuntState) :
    SessionState :=
  match hunt.loaded with
  | [core] =>
      match state.coreStates.find? (·.coreId = core) with
      | none => state
      | some cs =>
          if isStepped cs.phase ∧ hunt.vector.lookup core = some cs.currentOffset then
            let outcome := advanceCore config { cs with batteryIndex := 0 } false
            let moved := { state with engine := state.engine.moveCore outcome.core }
            if outcome.paused then moved.pause else moved
          else
            state
  | _ => state

/-- The physical cores that cannot be verified at stock. -/
def stockFailures (state : JournalState) (accepted : CoreId → Bool) : List CoreId :=
  state.topology.filter fun core =>
    !(decide (state.coRange.1 ≤ 0 ∧ 0 ≤ state.coRange.2) && accepted core)

/-- Put every core at stock, or quarantine the session. -/
def restoreHuntStock (config : TunerConfig) (state : SessionState) (accepted : CoreId → Bool) :
    SessionState :=
  let restored := restoreStockVerified config state.engine accepted
  let engine :=
    if stockFailures state.engine accepted = [] then restored
    else
      { restored with
        coreStates := restored.coreStates.map fun cs => { cs with inTest := false }
        quarantined := true }
  { state with engine }

/-- Hand back to the search. -/
def afterHuntResume (config : TunerConfig) (state : SessionState) (accepted : CoreId → Bool)
    (clearIncident : Bool) : SessionState :=
  let state := restoreHuntStock config state accepted
  if state.engine.quarantined ∨ !clearIncident then state
  else { state with unattributedCrashes := 0, resumeCrashStreak := 0 }

/-- Act on whatever the hunt proved. -/
def resolveHunt (config : TunerConfig) (state : SessionState) (hunt : HuntState)
    (accepted : CoreId → Bool) : SessionState :=
  let state := { state with huntState := .empty }
  if hunt.stage = .culprit ∧ hunt.found ≠ [] then
    -- Failing right after load starts puts the offset far past its edge.
    let steps :=
      if 0 < hunt.observedFailureTime ∧ hunt.observedFailureTime ≤ config.onsetFailureSeconds then
        config.crashPenaltySteps
      else 1
    let blamed := hunt.found.foldl
      (fun state core => blameCore config state core (hunt.vector.lookup core) steps) state
    afterHuntResume config blamed accepted true
  else
    let credited := creditSuspicion state hunt.vector
    let counted := { credited with unattributedCrashes := credited.unattributedCrashes + 1 }
    match suspicionVerdict config counted with
    | some core =>
        afterHuntResume config (blameCore config counted core (hunt.vector.lookup core) 1) accepted
          true
    | none =>
        let answered := failUnansweredStep config counted hunt
        if answered.paused then restoreHuntStock config answered accepted
        else afterHuntResume config answered accepted false

end Tuner
end CoreCycler
