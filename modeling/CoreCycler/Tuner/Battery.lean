import CoreCycler.Library.Checklist
import CoreCycler.Library.StepSystem
import CoreCycler.Tuner.Advance

/-!
# The regime battery of a core

An offset is accepted once a slot of every regime has passed at it.  The engine
keeps a cursor (`battery_index`) into an order of the regimes; the order is ranked
by failure yield, frozen in memory while the core stays where it is, and derived
again from the test log when the frozen one is gone.  `stepBattery` is one core's
battery under everything that happens to it: every change of the core is written
back at once, so a restart loses the frozen order only.
-/

namespace CoreCycler
namespace Tuner

open Library

/-! ## The test log -/

/-- The workload columns of a row of the test log. -/
structure RowWorkload where
  backend : Option String := none
  stressMode : Option String := none
  fftPreset : Option String := none
  threads : Option Int := none
  profile : Option String := none
  regime : Option String := none
deriving DecidableEq, Repr

/-- A row of the test log of a core, as far as the search reads it back. -/
structure TestRow where
  offset : Int
  passed : Bool
  /-- `duration_seconds` is set: a real test, not a synthetic crash row. -/
  timed : Bool := true
  workload : RowWorkload := {}
deriving DecidableEq, Repr

/-- The most aggressive of some offsets. -/
def mostAggressive (config : TunerConfig) : List Int → Option Int
  | [] => none
  | offset :: rest =>
      match mostAggressive config rest with
      | none => some offset
      | some best => if config.isMoreAggressive best offset then some best else some offset

/-- Most aggressive offset with a real logged PASS. -/
def mostAggressivePass (config : TunerConfig) (rows : List TestRow) : Option Int :=
  mostAggressive config
    ((rows.filter fun row => row.timed && row.passed).map TestRow.offset)

/-- A failure at or short of an offset the same workload has passed. -/
def contradictsPass (config : TunerConfig) (rows : List TestRow) (row : TestRow) : Bool :=
  !row.passed &&
    match mostAggressive config
        ((rows.filter fun other => other.passed && other.workload = row.workload).map
          TestRow.offset) with
    | none => false
    | some best => !config.isMoreAggressive row.offset best

/-- Repeated contradictions: the failures at the end of the log that follow earlier
passes. -/
def apparatusSuspect (config : TunerConfig) (log : List TestRow) : Bool :=
  let rows := log.filter TestRow.timed
  let streak := (rows.reverse.takeWhile (contradictsPass config rows)).length
  0 < config.apparatusFailureStreak ∧ config.apparatusFailureStreak ≤ streak

/-! ## The order of the regimes -/

/-- The regimes a phase wants. -/
def wantedRegimes (config : TunerConfig) (phase : TunerPhase) : List String :=
  if phase = .coarseSearch then config.coarseRegimes else Regime.all.map Regime.value

/-- The wanted regimes some battery entry implements. -/
def eligibleRegimes (config : TunerConfig) (phase : TunerPhase) : List String :=
  (wantedRegimes config phase).filter (· ∈ config.battery.filterMap WorkloadEntry.regime)

/-- A frozen order, with the phase and the offset it was made for. -/
structure BatteryOrder where
  phase : TunerPhase
  offset : Int
  regimes : List String
deriving DecidableEq, Repr

/-- Whether an order was made for where the core is. -/
def BatteryOrder.fits (order : BatteryOrder) (cs : CoreState) : Bool :=
  order.phase = cs.phase ∧ order.offset = cs.currentOffset

/-- The eligible regime a row passed at the core's offset. -/
def passKey (eligible : List String) (offset : Int) (row : TestRow) : Option String :=
  if row.passed ∧ row.offset = offset then row.workload.regime.filter (· ∈ eligible) else none

/-- The last `battery_index` regimes passed at the core's offset, oldest first. -/
def completedRegimes (eligible : List String) (cs : CoreState) (log : List TestRow) :
    List String :=
  if 0 < cs.batteryIndex then
    (Checklist.firstDistinct (passKey eligible cs.currentOffset) cs.batteryIndex
      log.reverse []).reverse
  else []

/-- The sort key `(-weight, regime)`. -/
def rankedBefore (weights : String → ℚ) (first second : String) : Prop :=
  weights second < weights first ∨ weights first = weights second ∧ first ≤ second

instance (weights : String → ℚ) : DecidableRel (rankedBefore weights) :=
  fun _ _ => inferInstanceAs (Decidable (_ ∨ _ ∧ _))

/-- One core's battery: the core, the frozen order and the core's test log, oldest row
first. -/
structure BatteryState where
  core : CoreState
  frozen : Option BatteryOrder := none
  log : List TestRow := []
deriving DecidableEq, Repr

/-- Yield-ranked regimes with the completed ones kept first. -/
def derivedRegimes (config : TunerConfig) (state : BatteryState) (weights : String → ℚ) :
    List String :=
  let eligible := eligibleRegimes config state.core.phase
  let completed := completedRegimes eligible state.core state.log
  completed ++
    (eligible.filter (· ∉ completed)).insertionSort (rankedBefore weights)

/-- The order of the slot's regimes: the frozen one where it fits. -/
def slotRegimes (config : TunerConfig) (state : BatteryState) (weights : String → ℚ) :
    List String :=
  match state.frozen with
  | some order =>
      if order.fits state.core then order.regimes else derivedRegimes config state weights
  | none => derivedRegimes config state weights

/-- Looking the order up freezes it. -/
def freezeOrder (config : TunerConfig) (state : BatteryState) (weights : String → ℚ) :
    BatteryState :=
  { state with
    frozen := some
      { phase := state.core.phase
        offset := state.core.currentOffset
        regimes := slotRegimes config state weights } }

/-- The regime whose verdict the slot produces. -/
def activeRegime (config : TunerConfig) (state : BatteryState) (weights : String → ℚ) :
    Option String :=
  let regimes := slotRegimes config state weights
  regimes[state.core.batteryIndex % regimes.length]?

/-- The battery workload the slot runs: the entries of its regime take turns. -/
def batteryEntry (config : TunerConfig) (state : BatteryState) (weights : String → ℚ)
    (rotation : Nat) : Option WorkloadEntry :=
  (activeRegime config state weights).bind fun target =>
    let candidates := config.battery.filter fun entry => entry.regime = some target
    candidates[rotation % candidates.length]?

/-! ## Steps -/

/-- What the engine does with a slot's verdict once it is logged. -/
inductive SlotAnswer
  /-- Nothing: the CO revert failed, evidence against another core paused the engine, or
  the process died. -/
  | stopped
  /-- `_apparatus_suspect`: the FAIL is kept and the engine pauses. -/
  | suspect
  /-- A PASS with regimes still to run. -/
  | nextRegime
  /-- `_advance_core(core, passed)`. -/
  | advance (passed : Bool)
deriving DecidableEq, Repr

/-- The verdict of a battery slot. -/
structure SlotVerdict where
  passed : Bool
  /-- The workload columns of the slot's row, but for the regime. -/
  ran : RowWorkload := {}
  /-- The regime weights when the verdict comes in. -/
  weights : String → ℚ := fun _ => 0
  /-- The engine stops once the row is logged. -/
  stops : Bool := false

/-- Everything that happens to the battery of a core. -/
inductive BatteryEvent
  /-- The core is picked for a slot. -/
  | launch (weights : String → ℚ)
  /-- The slot ends with a verdict. -/
  | verdict (verdict : SlotVerdict)
  /-- The slot ends without one (startup, thermal, apparatus fault), or flags, counters
  and times are updated. -/
  | account (inTest : Bool) (crashCooldown thermalAborts : Nat) (cumulativeTestTime suspicion : ℚ)
  /-- Validation, a hunt or crash handling logs a row of the core. -/
  | record (row : TestRow)
  /-- The order is looked up outside a slot of the core. -/
  | consult (weights : String → ℚ)
  /-- A hunt leaves the step the machine died on unanswered: it counts as failed. -/
  | unanswered
  /-- A crash, a machine check or a hunt blames the core at the resident offset. -/
  | penalty (resident : Int) (steps : Option Int) (countCrash : Bool)
  /-- A confirmed core with `hours` banked is picked for an annealing probe. -/
  | anneal (hours : ℚ)
  /-- Validation backs the core off. -/
  | backOff
  /-- A quarantined session is re-opened. -/
  | reengage (survived : Int)
  /-- A resume checks the confirmed offset against the log. -/
  | reconcile
  /-- A finished profile is validated again. -/
  | revalidate
  /-- The process ends and another one resumes the session. -/
  | restart

/-- The core and the frozen order after a transition. -/
def BatteryState.moved (state : BatteryState) (outcome : Outcome) : BatteryState :=
  { state with
    core := outcome.core
    frozen := if outcome.orderDropped then none else state.frozen }

@[simp] theorem BatteryState.moved_core (state : BatteryState) (outcome : Outcome) :
    (state.moved outcome).core = outcome.core := rfl

@[simp] theorem BatteryState.moved_log (state : BatteryState) (outcome : Outcome) :
    (state.moved outcome).log = state.log := rfl

/-- The slot's row. -/
def slotRow (config : TunerConfig) (state : BatteryState) (verdict : SlotVerdict) : TestRow :=
  { offset := state.core.currentOffset
    passed := verdict.passed
    workload := { verdict.ran with regime := activeRegime config state verdict.weights } }

/-- The battery once the slot's row is logged. -/
def logSlot (config : TunerConfig) (state : BatteryState) (verdict : SlotVerdict) :
    BatteryState :=
  { freezeOrder config state verdict.weights with
    log := state.log ++ [slotRow config state verdict] }

/-- The battery gate: an offset is only accepted once every regime in the slot's battery
has passed at it. -/
def slotAnswer (config : TunerConfig) (state : BatteryState) (verdict : SlotVerdict) :
    SlotAnswer :=
  let regimes := slotRegimes config state verdict.weights
  if verdict.stops then
    .stopped
  else if !verdict.passed && apparatusSuspect config (logSlot config state verdict).log then
    .suspect
  else if verdict.passed ∧ state.core.batteryIndex + 1 < regimes.length then
    .nextRegime
  else
    .advance verdict.passed

/-- Give up the cursor and the order, and advance the core. -/
def resetAndAdvance (config : TunerConfig) (state : BatteryState) (passed : Bool) :
    BatteryState :=
  BatteryState.moved { state with frozen := none }
    (advanceCore config { state.core with batteryIndex := 0 } passed)

@[simp] theorem resetAndAdvance_frozen (config : TunerConfig) (state : BatteryState)
    (passed : Bool) : (resetAndAdvance config state passed).frozen = none := by
  simp [resetAndAdvance, BatteryState.moved]

/-- Process a slot's verdict. -/
def answerSlot (config : TunerConfig) (state : BatteryState) (verdict : SlotVerdict) :
    BatteryState :=
  let logged := logSlot config state verdict
  match slotAnswer config state verdict with
  | .stopped => logged
  -- Unlike every other verdict, this one leaves the cursor and the order as they are.
  | .suspect => logged.moved (advanceCore config state.core false)
  | .nextRegime =>
      { logged with
        core := { state.core with batteryIndex := state.core.batteryIndex + 1 } }
  | .advance passed => resetAndAdvance config logged passed

/-- A confirmed core without a logged pass behind its best offset is rolled back. -/
def reconcileConfirmed (config : TunerConfig) (state : BatteryState) : CoreState :=
  let proof := mostAggressivePass config state.log
  match state.core.bestOffset with
  | none => state.core
  | some best =>
      if state.core.phase ≠ .confirmed ∨ best = state.core.baselineOffset ∨
          proof.any (fun pass => !config.isMoreAggressive best pass) then
        state.core
      else
        rollbackCoreToEvidence state.core proof

/-- The battery after an event, or `none` when the engine cannot raise it. -/
def stepBattery (config : TunerConfig) (state : BatteryState) :
    BatteryEvent → Option BatteryState
  | .launch weights =>
      -- The engine launches no slot of its battery for a confirmed core.
      if state.core.phase = .confirmed then none
      else some (freezeOrder config { state with core := prepareSlot config state.core } weights)
  | .verdict verdict =>
      if isStepped state.core.phase then some (answerSlot config state verdict) else none
  | .account inTest crashCooldown thermalAborts cumulativeTestTime suspicion =>
      some { state with
        core := { state.core with
          inTest := inTest
          crashCooldown := crashCooldown
          thermalAborts := thermalAborts
          cumulativeTestTime := cumulativeTestTime
          suspicion := suspicion } }
  | .record row => some { state with log := state.log ++ [row] }
  | .consult weights => some (freezeOrder config state weights)
  | .unanswered =>
      if isStepped state.core.phase then some (resetAndAdvance config state false) else none
  | .penalty resident steps countCrash =>
      if 1 ≤ steps.getD config.crashPenaltySteps then
        some (state.moved (penalizeResident config state.core resident steps countCrash))
      else none
  | .anneal hours =>
      if mayAnneal config state.core hours then some (state.moved (startAnneal config state.core))
      else none
  | .backOff =>
      if state.core.phase = .confirmed then
        (backoffCore config state.core).map fun core => { state with core := core }
      else none
  | .reengage survived =>
      some { state with core := reengageCore config state.core survived }
  | .reconcile => some { state with core := reconcileConfirmed config state }
  | .revalidate =>
      if state.core.phase = .confirmed then
        state.core.bestOffset.map fun best =>
          { state with core := revalidateCore state.core best, frozen := none }
      else none
  -- The frozen order is not in the row, so it does not outlive the process.
  | .restart => some { state with frozen := none }

end Tuner
end CoreCycler
