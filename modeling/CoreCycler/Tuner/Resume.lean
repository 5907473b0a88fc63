import CoreCycler.Tuner.HuntVerdict

/-!
# Resuming a session

`resume` rebuilds the engine from the session row, attributes a crash if there was one,
restores the baselines and continues where the cursor points.  A resume without a crash
(in the same boot, or after one that ended cleanly) only sets the interruption aside; a
persisted hunt is taken up again.  What follows a crash is a parameter.
-/

namespace CoreCycler
namespace Tuner

open Bisect

/-! ## What a resume finds -/

/-- The machine and the process a session is resumed in. -/
structure ResumeEnvironment where
  /-- The current boot; empty when it cannot be read. -/
  bootId : String := ""
  /-- The boot of the session has evidence of an orderly shutdown. -/
  lastBootEndedCleanly : Bool := false
  /-- The session was paused in this process. -/
  sameProcess : Bool := false
  /-- The worker of the last slot is still running. -/
  workerRunning : Bool := false
  /-- The session exists, and under the current contract. -/
  sessionFound : Bool := true
  /-- The saved configuration can be used. -/
  configLoads : Bool := true
  /-- Offsets can be addressed core by core. -/
  coAccess : Bool := true
  /-- Every selected core is in the topology. -/
  coresPresent : Bool := true
  contextComplete : Bool := true
  /-- The cores that take their baseline. -/
  baselineAccepted : CoreId → Bool := fun _ => true
  /-- The cores that can be verified at stock. -/
  stockAccepted : CoreId → Bool := fun _ => true

/-- A resume is refused before it touches the session. -/
def ResumeEnvironment.refuses (env : ResumeEnvironment) : Bool :=
  env.workerRunning || !env.sessionFound || !env.configLoads || !env.coAccess

/-- Whether the machine rebooted since the session last ran; an unknown boot counts. -/
def rebootedSince (previousBootId bootId : String) : Bool :=
  if previousBootId ≠ "" ∧ bootId ≠ "" then previousBootId ≠ bootId else true

/-- The offsets of a core that must be in the hardware range. -/
def rangedOffsets (cs : CoreState) : List Int :=
  cs.currentOffset :: cs.baselineOffset ::
    [cs.bestOffset, cs.coarseFailOffset, cs.backoffFailBound, cs.backoffPassBound,
      cs.provenOffset].reduceOption

/-- A persisted core is absent from the topology, or one of its offsets out of range. -/
def coreStateRangeError (state : JournalState) : Bool :=
  state.coreIds.any (· ∉ state.topology) ||
    state.coreStates.any fun cs =>
      (rangedOffsets cs).any fun offset =>
        !decide (state.coRange.1 ≤ offset ∧ offset ≤ state.coRange.2)

/-- The session cannot be resumed on this machine. -/
def unusable (env : ResumeEnvironment) (state : JournalState) : Bool :=
  !env.coresPresent || !env.contextComplete || coreStateRangeError state

/-! ## The steps of a resume -/

/-- Leave the probe in flight to be run again, unanswered. -/
def requeueHuntProbe (state : SessionState) (hunt : HuntState) : SessionState :=
  clearAllInTest { state with huntState := .document { hunt with armed := false } }

/-- Set an interruption aside that was no crash, and pick up the persisted hunt. -/
def setAsideInterruption (state : SessionState) (saved : Option HuntState) :
    SessionState × Option HuntState :=
  let state := clearAllInTest state
  match saved with
  | none => ({ state with huntState := .empty }, none)
  | some hunt =>
      if hunt.armed then
        (requeueHuntProbe state hunt, some { hunt with armed := false })
      else
        (state, some hunt)

/-- Demote every confirmed core without a logged pass behind its best offset. -/
def reconcileConfirmedEvidence (config : TunerConfig) (state : SessionState) : SessionState :=
  state.mapCores fun cs =>
    reconcileConfirmed config { core := cs, log := state.testLog cs.coreId }

/-- Restore the baseline of every core. -/
def restoreBaselines (config : TunerConfig) (state : SessionState) (accepted : CoreId → Bool) :
    SessionState :=
  { state with
    engine := state.coreStates.foldl
      (fun engine cs =>
        writeCoVerified config engine cs.coreId cs.baselineOffset (accepted cs.coreId))
      state.engine }

/-- The cores that do not take their baseline. -/
def baselineFailures (state : JournalState) (accepted : CoreId → Bool) : List CoreId :=
  (state.coreStates.filter fun cs =>
    !(decide (state.coRange.1 ≤ cs.baselineOffset ∧ cs.baselineOffset ≤ state.coRange.2) &&
      accepted cs.coreId)).map CoreState.coreId

/-- What the engine does once it has resumed. -/
inductive Next
  /-- Nothing: the resume was refused. -/
  | refused
  /-- Nothing: the resume stopped, and paused a session that is not closed. -/
  | halted
  /-- A probe of a hunt is launched. -/
  | probe (live : List CoreId)
  /-- The search goes on. -/
  | search
  | validation
deriving DecidableEq, Repr

/-- A resumed session. -/
structure Resumed where
  state : SessionState
  next : Next
  /-- The hunt `_run_next_hunt_slot` was handed, if any. -/
  hunted : Option HuntState := none

/-- Continue a hunt: its next probe, or its verdict when no probe is left. -/
def runNextHuntSlot (config : TunerConfig) (env : ResumeEnvironment) (state : SessionState)
    (hunt : HuntState) : Resumed :=
  -- The status is `hunting`.
  let state := { state with platformFault := false }
  match nextLiveSet hunt with
  | (some live, probing) =>
      { state := { state with huntState := .document { probing with armed := false } }
        next := .probe live
        hunted := some hunt }
  | (none, done) =>
      { state := resolveHunt config state done env.stockAccepted
        next := .search
        hunted := some hunt }

/-- Continue the search, or the validation a session of confirmed cores was in. -/
def continueSession (config : TunerConfig) (state : SessionState) : Resumed :=
  let confirmed := state.coreStates.all (·.phase = .confirmed)
  { state := { state with platformFault := false }
    next :=
      if confirmed ∧ config.autoValidate ∧ 1 < state.coreStates.length then .validation
      else .search }

/-- Resume a session from where the attribution of a crash, if any, has left it. -/
def continueAfter (config : TunerConfig) (env : ResumeEnvironment) (state : SessionState)
    (saved : Option HuntState) : Resumed :=
  let state := reconcileConfirmedEvidence config state
  let state := { state with bootId := env.bootId }
  let restored := restoreBaselines config state env.baselineAccepted
  if baselineFailures state.engine env.baselineAccepted ≠ [] then
    { state := restored.pause, next := .halted }
  else
    match saved with
    | some hunt => runNextHuntSlot config env restored hunt
    | none => continueSession config restored

/-- Resume a session. -/
def resume (afterCrash : SessionState → Option HuntState → Resumed) (config : TunerConfig)
    (env : ResumeEnvironment) (state : SessionState) : Resumed :=
  if env.refuses then
    { state, next := .refused }
  else if unusable env state.engine then
    { state := state.pause, next := .halted }
  else
    let rebooted := rebootedSince state.bootId env.bootId && !state.engine.quarantined
    let state := { state with engine := resumeJournal config state.engine env.sameProcess }
    match state.huntState.fromJson with
    | .error _ => { state := state.pause, next := .halted }
    | .ok saved =>
        if rebooted ∧ !env.lastBootEndedCleanly then
          afterCrash state saved
        else
          let (state, hunt) := setAsideInterruption state saved
          continueAfter config env state hunt

end Tuner
end CoreCycler
