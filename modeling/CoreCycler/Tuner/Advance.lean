import CoreCycler.Tuner.State

/-!
# Transitions of one core

The engine's per-core state machine: slot verdicts (`advanceCore`), crash and
machine-check penalties (`applyCrashPenalty`), validation back-offs, annealing
probes, quarantine re-engagement and evidence rollback.  A transition returns
the core together with what it asks of the engine.
-/

namespace CoreCycler
namespace Tuner

/-- A core after a transition, and what the transition asks of the engine. -/
structure Outcome where
  core : CoreState
  /-- `pause()` was called. -/
  paused : Bool := false
  /-- A core failed at its very first offset. -/
  startFailure : Bool := false
  /-- The frozen battery order of the core was dropped. -/
  orderDropped : Bool := false
  /-- A running validation owes another clean pass. -/
  validationDirtied : Bool := false
deriving DecidableEq, Repr

/-! ## Helpers of the state machine -/

/-- Coarse step size, reduced near `max_offset`. -/
def getCoarseStep (config : TunerConfig) (cs : CoreState) : Int :=
  let distance : Int := (cs.currentOffset - config.maxOffset).natAbs
  if distance ≤ config.coarseStep * 2 then config.fineStep else config.coarseStep

/-- Whether an offset is at or past the core's baseline. -/
def atOrPastBaseline (config : TunerConfig) (offset : Int) (cs : CoreState) : Bool :=
  config.atOrPast offset cs.baselineOffset

/-- A confirmed pass bound is a hard floor for the fail paths. -/
def backoffFloor (config : TunerConfig) (cs : CoreState) (newOffset : Int) : Option Int :=
  match cs.backoffPassBound with
  | some bound => if config.isMoreAggressive bound newOffset then some bound else none
  | none => none

/-- Clean hours a core must bank before it may probe a step deeper. -/
def annealBar (config : TunerConfig) (cs : CoreState) : ℚ :=
  if cs.annealBarHours ≠ 0 then cs.annealBarHours else config.annealBankHours

/-- Distance between two bounds. -/
def gapBetween (first second : Int) : Int := (first - second).natAbs

/-- The step back from `offset`, stopped at the baseline. -/
def retreatTo (config : TunerConfig) (cs : CoreState) (offset : Int) : Int :=
  if atOrPastBaseline config offset cs then cs.baselineOffset else offset

def isBackoff (phase : TunerPhase) : Bool :=
  phase = .backoffPreconfirm ∨ phase = .backoffConfirming

/-- The phases whose slot asks whether the core survives its offset
(`_STEPPED_PHASES`). -/
def isStepped (phase : TunerPhase) : Bool :=
  phase = .coarseSearch ∨ phase = .fineSearch ∨ phase = .confirming ∨
    phase = .backoffPreconfirm ∨ phase = .backoffConfirming ∨ phase = .annealing

/-! ## Slot verdicts -/

/-- Settle an annealing probe. -/
def resolveAnneal (config : TunerConfig) (cs : CoreState) (passed : Bool) : Outcome :=
  let contradicted := match cs.backoffFailBound with
    | some bound =>
        decide (cs.currentOffset = bound) || config.isMoreAggressive cs.currentOffset bound
    | none => false
  let cs := if passed && !contradicted then
      { cs with
        bestOffset := some cs.currentOffset
        provenOffset := some cs.currentOffset
        annealStrikes := 0
        annealBarHours := config.annealBankHours }
    else
      { cs with
        currentOffset := cs.bestOffset.getD cs.currentOffset
        annealStrikes := cs.annealStrikes + 1
        annealBarHours := annealBar config cs * 2 }
  { core := { cs with phase := .confirmed, batteryIndex := 0 }, orderDropped := true }

/-- Fail closed to the baseline when a persisted back-off row has no best. -/
def normalizeBest (cs : CoreState) : CoreState :=
  if cs.bestOffset = none ∧ isBackoff cs.phase then
    { cs with bestOffset := some cs.baselineOffset }
  else cs

/-- A FAIL in a back-off phase tightens the bounds. -/
def recordBackoffFail (config : TunerConfig) (cs : CoreState) : CoreState :=
  { cs with
    backoffFailBound := match cs.backoffFailBound with
      | none => some cs.currentOffset
      | some bound =>
          if config.isMoreAggressive bound cs.currentOffset then some cs.currentOffset
          else some bound
    backoffPassBound := match cs.backoffPassBound with
      | none => none
      | some bound =>
          if config.isMoreAggressive cs.currentOffset bound then some bound else none }

/-- A PASS at or beyond the recorded fail bound: the failure stands.  `none` when
there is no contradiction. -/
def handleContradictoryPass (config : TunerConfig) (cs : CoreState) : Option Outcome :=
  match cs.backoffFailBound with
  | none => none
  | some bound =>
      if config.isMoreAggressive bound cs.currentOffset then
        none
      else
        let stepBack := bound - config.direction * config.fineStep
        if atOrPastBaseline config stepBack cs then
          some
            { core := { cs with
                phase := .backoffPreconfirm
                bestOffset := some cs.baselineOffset
                currentOffset := cs.baselineOffset }
              paused := atOrPastBaseline config bound cs }
        else
          some
            { core := { cs with
                phase := .backoffPreconfirm
                currentOffset := stepBack
                bestOffset := match cs.bestOffset with
                  | none => none
                  | some best =>
                      if config.isMoreAggressive best stepBack then some stepBack
                      else some best } }

/-- The offset a core's search steps off from. -/
def searchBase (config : TunerConfig) (cs : CoreState) : Int :=
  if config.inheritCurrent ∧ cs.currentOffset ≠ 0 then cs.currentOffset else config.startOffset

/-- First step: enter coarse search. -/
def advanceNotStarted (config : TunerConfig) (cs : CoreState) : CoreState :=
  let first := searchBase config cs + config.direction * config.coarseStep
  { cs with
    phase := .coarseSearch
    currentOffset := if config.exceedsMax first then config.maxOffset else first }

/-- At or past the coarse failure in the direction of search. -/
def reachesCoarseFail (config : TunerConfig) (cs : CoreState) (offset : Int) : Bool :=
  match cs.coarseFailOffset with
  | none => false
  | some failed =>
      (config.direction < 0 ∧ offset ≤ failed) ∨ (0 < config.direction ∧ failed ≤ offset)

def advanceCoarse (config : TunerConfig) (cs : CoreState) (passed : Bool) : Outcome :=
  if passed then
    let cs := { cs with bestOffset := some cs.currentOffset }
    let nextOffset := cs.currentOffset + config.direction * getCoarseStep config cs
    if config.exceedsMax nextOffset then
      { core := { cs with phase := .settled } }
    else
      { core := { cs with currentOffset := nextOffset } }
  else
    let failed := cs.currentOffset
    let cs := { cs with coarseFailOffset := some failed }
    match cs.bestOffset with
    | none =>
        let next := retreatTo config cs (failed - config.direction * config.fineStep)
        { core := { cs with
            backoffFailBound := some failed
            bestOffset := some next
            currentOffset := next
            backoffMode := true
            phase := .backoffPreconfirm }
          -- A failure at the very first step is reported apart.
          startFailure :=
            failed = config.startOffset + config.direction * config.coarseStep }
    | some best =>
        -- Between the pass and the failure the search goes on in fine steps.
        let probe := best + config.direction * config.fineStep
        let current := if config.exceedsMax probe then config.maxOffset else probe
        let cs := { cs with currentOffset := current }
        { core := { cs with
            phase := if reachesCoarseFail config cs current then .settled else .fineSearch } }

def advanceFine (config : TunerConfig) (cs : CoreState) (passed : Bool) : CoreState :=
  if passed then
    let cs := { cs with bestOffset := some cs.currentOffset }
    let nextOffset := cs.currentOffset + config.direction * config.fineStep
    if reachesCoarseFail config cs nextOffset || config.exceedsMax nextOffset then
      { cs with phase := .settled }
    else
      { cs with currentOffset := nextOffset }
  else
    { cs with phase := .settled }

/-- Move to confirmation. -/
def advanceSettled (cs : CoreState) : CoreState :=
  match cs.bestOffset with
  | some best => { cs with phase := .confirming, currentOffset := best }
  | none =>
      { cs with
        phase := .confirming
        bestOffset := some cs.baselineOffset
        currentOffset := cs.baselineOffset }

def advanceConfirming (config : TunerConfig) (cs : CoreState) (passed : Bool) : CoreState :=
  if passed then
    { cs with phase := .confirmed, confirmAttempts := 0 }
  else
    { cs with
      confirmAttempts := cs.confirmAttempts + 1
      phase :=
        if config.maxConfirmRetries ≤ cs.confirmAttempts + 1 then .failedConfirm
        else cs.phase }

/-- Back off by one fine step and enter back-off preconfirmation. -/
def advanceFailedConfirm (config : TunerConfig) (cs : CoreState) : CoreState :=
  match cs.bestOffset with
  | some best =>
      let newBest := best - config.direction * config.fineStep
      if atOrPastBaseline config newBest cs then
        { cs with
          phase := .backoffPreconfirm
          bestOffset := some cs.baselineOffset
          currentOffset := cs.baselineOffset }
      else
        { cs with
          bestOffset := some newBest
          currentOffset := newBest
          phase := .backoffPreconfirm
          backoffMode := true
          confirmAttempts := 0
          consecutiveBackoffFails := 0 }
  | none =>
      { cs with
        phase := .backoffPreconfirm
        bestOffset := some cs.baselineOffset
        currentOffset := cs.baselineOffset }

def preconfirmPass (config : TunerConfig) (cs : CoreState) : CoreState :=
  let proven := cs.currentOffset
  let hadPassBound := cs.backoffPassBound
  let cs := { cs with bestOffset := some proven, backoffPassBound := some proven }
  match hadPassBound, cs.backoffFailBound with
  | some _, some failBound =>
      let gap := gapBetween failBound proven
      if gap ≤ config.fineStep then
        { cs with phase := .backoffConfirming }
      else
        -- Probe the midpoint as current only; best stays at the proven pass bound.
        { cs with currentOffset := proven + config.direction * (gap / 2) }
  | _, _ => { cs with phase := .backoffConfirming, confirmAttempts := 0 }

/-- Enough consecutive back-off failures to jump half way to the baseline. -/
def jumpsToMidpoint (config : TunerConfig) (cs : CoreState) : Bool :=
  config.midpointJumpThreshold ≤ cs.consecutiveBackoffFails

/-- The step back after a back-off failure without a pass bound. -/
def backoffStep (config : TunerConfig) (cs : CoreState) : Int :=
  if jumpsToMidpoint config cs then
    max config.fineStep (gapBetween cs.currentOffset cs.baselineOffset / 2)
  else config.fineStep

def preconfirmFail (config : TunerConfig) (cs : CoreState) : CoreState :=
  let cs := { cs with consecutiveBackoffFails := cs.consecutiveBackoffFails + 1 }
  match cs.backoffPassBound with
  | some passBound =>
      let gap := gapBetween (cs.backoffFailBound.getD cs.currentOffset) passBound
      let cs := { cs with bestOffset := some passBound }
      if gap ≤ config.fineStep then
        { cs with phase := .backoffConfirming, currentOffset := passBound }
      else
        { cs with currentOffset := passBound + config.direction * (gap / 2) }
  | none =>
      let next :=
        retreatTo config cs (cs.currentOffset - config.direction * backoffStep config cs)
      { cs with
        consecutiveBackoffFails :=
          if jumpsToMidpoint config cs then 0 else cs.consecutiveBackoffFails
        bestOffset := some next
        currentOffset := next }

def backoffConfirmPass (config : TunerConfig) (cs : CoreState) : CoreState :=
  let proven := cs.currentOffset
  let cs := { cs with bestOffset := some proven, backoffPassBound := some proven }
  match cs.backoffFailBound with
  | some failBound =>
      let gap := gapBetween failBound proven
      if gap ≤ config.fineStep then
        { cs with phase := .confirmed }
      else
        { cs with
          currentOffset := proven + config.direction * (gap / 2)
          phase := .backoffPreconfirm }
  | none => { cs with phase := .confirmed }

def backoffConfirmFail (config : TunerConfig) (cs : CoreState) : CoreState :=
  let newOffset :=
    cs.bestOffset.getD cs.baselineOffset - config.direction * config.fineStep
  match backoffFloor config cs newOffset with
  | some floor =>
      { cs with phase := .backoffConfirming, bestOffset := some floor, currentOffset := floor }
  | none =>
      { cs with
        phase := .backoffPreconfirm
        bestOffset := some (retreatTo config cs newOffset)
        currentOffset := retreatTo config cs newOffset }

/-- The phase's own step, once the guards have passed. -/
def advancePhase (config : TunerConfig) (cs : CoreState) (passed : Bool) : Outcome :=
  match cs.phase with
  | .notStarted => { core := advanceNotStarted config cs }
  | .coarseSearch => advanceCoarse config cs passed
  | .fineSearch => { core := advanceFine config cs passed }
  | .settled => { core := advanceSettled cs }
  | .confirming => { core := advanceConfirming config cs passed }
  | .failedConfirm => { core := advanceFailedConfirm config cs }
  | .backoffPreconfirm =>
      { core := if passed then preconfirmPass config cs else preconfirmFail config cs }
  | .backoffConfirming =>
      { core := if passed then backoffConfirmPass config cs else backoffConfirmFail config cs }
  | .confirmed => { core := cs }
  | .annealing => { core := cs }

/-- A PASS that confirms a core proves its best offset. -/
def recordProven (outcome : Outcome) (passed : Bool) : Outcome :=
  if passed ∧ outcome.core.phase = .confirmed then
    { outcome with
      core := { outcome.core with provenOffset := outcome.core.bestOffset } }
  else outcome

/-- The bounds a verdict leaves the phase's step with. -/
def absorbVerdict (config : TunerConfig) (cs : CoreState) (passed : Bool) : CoreState :=
  let cs := normalizeBest cs
  if !passed && isBackoff cs.phase then recordBackoffFail config cs else cs

/-- A FAIL at or past the baseline leaves nothing to retreat to. -/
def baselineFailed (config : TunerConfig) (cs : CoreState) (passed : Bool) : Bool :=
  !passed && (decide (cs.phase = .confirming) || isBackoff cs.phase) &&
    atOrPastBaseline config cs.currentOffset cs

/-- State machine transitions for a single core. -/
def advanceCore (config : TunerConfig) (cs : CoreState) (passed : Bool) : Outcome :=
  if cs.phase = .annealing then
    resolveAnneal config cs passed
  else
    let cs := absorbVerdict config cs passed
    if baselineFailed config cs passed then
      { core := cs, paused := true }
    else
      match if passed && isBackoff cs.phase then handleContradictoryPass config cs else none with
      | some outcome => outcome
      | none => recordProven (advancePhase config cs passed) passed

/-- The automatic step out of a phase that tests nothing. -/
def leaveSettled (config : TunerConfig) (cs : CoreState) : CoreState :=
  if cs.phase = .settled ∨ cs.phase = .failedConfirm then
    (advanceCore config cs false).core
  else cs

/-- What the engine does to the picked core before it launches a slot. -/
def prepareSlot (config : TunerConfig) (cs : CoreState) : CoreState :=
  leaveSettled config
    (if cs.phase = .notStarted then (advanceCore config cs false).core else cs)

/-! ## Penalties -/

/-- A crash tightens the bounds at the offset that died. -/
def recordCrash (config : TunerConfig) (cs : CoreState) : CoreState :=
  { cs with
    backoffFailBound := match cs.backoffFailBound with
      | none => some cs.currentOffset
      | some bound =>
          if config.isMoreAggressive cs.currentOffset bound then some bound
          else some cs.currentOffset
    backoffPassBound := match cs.backoffPassBound with
      | none => none
      | some bound =>
          if config.isMoreAggressive cs.currentOffset bound then some bound else none }

/-- Where a crash penalty sends a crashed offset; never past stock. -/
def penalizedOffset (config : TunerConfig) (crashedOffset steps : Int) : Int :=
  let newOffset := crashedOffset - config.direction * (steps * config.fineStep)
  if config.isMoreAggressive 0 newOffset then 0 else newOffset

/-- Retreat from the crashed offset, descending the baseline when it crashed. -/
def retreatFromCrash (config : TunerConfig) (cs : CoreState) (steps : Int) : CoreState :=
  let newOffset := penalizedOffset config cs.currentOffset steps
  if atOrPastBaseline config cs.currentOffset cs then
    { cs with baselineOffset := newOffset, currentOffset := newOffset }
  else if atOrPastBaseline config newOffset cs then
    { cs with currentOffset := cs.baselineOffset }
  else
    { cs with currentOffset := newOffset }

/-- A value resident at a crash can never remain best. -/
def demoteBest (config : TunerConfig) (cs : CoreState) : CoreState :=
  { cs with
    bestOffset := match cs.bestOffset with
      | none => some cs.baselineOffset
      | some best =>
          if config.isMoreAggressive best cs.currentOffset then some cs.currentOffset
          else some best }

/-- The phases a penalty forces into back-off. -/
def forcedIntoBackoff (phase : TunerPhase) : Bool :=
  phase = .coarseSearch ∨ phase = .fineSearch ∨ phase = .confirming ∨ phase = .confirmed ∨
    phase = .backoffPreconfirm

/-- Apply a crash penalty at the current offset. -/
def applyCrashPenalty (config : TunerConfig) (cs : CoreState) (steps : Option Int)
    (countCrash : Bool) : Outcome :=
  let invalidatedConfirmation := decide (cs.phase = .confirmed) || decide (cs.phase = .annealing)
  let cs := { cs with batteryIndex := 0, confirmAttempts := 0 }
  -- At stock there is nothing to take back, so the tuner pauses.
  if cs.currentOffset = 0 then
    { core := { cs with crashCount := cs.crashCount + if countCrash then 1 else 0 }
      paused := true
      orderDropped := true }
  else
    let cs := recordCrash config cs
    let cs := retreatFromCrash config cs (steps.getD config.crashPenaltySteps)
    let cs := { cs with
      crashCount := cs.crashCount + if countCrash then 1 else 0
      crashCooldown := if countCrash then 2 else cs.crashCooldown }
    let cs := demoteBest config cs
    let cs := { cs with
      -- A confirmation that crashed is not annealed again.
      annealStrikes :=
        if invalidatedConfirmation then config.annealMaxStrikes else cs.annealStrikes
      phase := if forcedIntoBackoff cs.phase then .backoffPreconfirm else cs.phase
      backoffMode := forcedIntoBackoff cs.phase || cs.backoffMode }
    { core := cs, orderDropped := true, validationDirtied := true }

/-- A penalty anchored at the offset that was resident. -/
def penalizeResident (config : TunerConfig) (cs : CoreState) (resident : Int)
    (steps : Option Int) (countCrash : Bool) : Outcome :=
  applyCrashPenalty config { cs with currentOffset := resident } steps countCrash

/-! ## Start, annealing, validation and resume -/

/-- The seed a search can act on, clamped to its cap. -/
def resolveSeed (config : TunerConfig) (seed : Option Int) : Option Int :=
  match seed with
  | none => none
  | some offset =>
      if config.isMoreAggressive offset config.startOffset then
        some (if config.exceedsMax offset then config.maxOffset else offset)
      else none

/-- A core of a new session, from its seed and the offset read back from the SMU. -/
def startCore (config : TunerConfig) (coreId : Nat) (seed readBack : Option Int) : CoreState :=
  let inherited := if config.inheritCurrent then readBack else none
  match resolveSeed config seed with
  | some offset =>
      { coreId := coreId
        currentOffset := offset
        baselineOffset := config.startOffset
        phase := .coarseSearch }
  | none =>
      { coreId := coreId
        currentOffset := inherited.getD config.startOffset
        baselineOffset := inherited.getD config.startOffset
        phase := .notStarted }

/-- Whether a confirmed core with `hours` banked may probe one fine step deeper. -/
def mayAnneal (config : TunerConfig) (cs : CoreState) (hours : ℚ) : Bool :=
  match cs.bestOffset with
  | none => false
  | some best =>
      let candidate := best + config.direction * config.fineStep
      0 < config.annealBankHours ∧ cs.phase = .confirmed ∧
        cs.annealStrikes < config.annealMaxStrikes ∧
        !config.exceedsMax candidate ∧
        !(match cs.backoffFailBound with
          | none => false
          | some bound =>
              decide (candidate = bound) || config.isMoreAggressive candidate bound) ∧
        annealBar config cs ≤ hours

/-- Start the annealing probe of the picked core. -/
def startAnneal (config : TunerConfig) (cs : CoreState) : Outcome :=
  { core := { cs with
      phase := .annealing
      currentOffset :=
        cs.bestOffset.getD cs.currentOffset + config.direction * config.fineStep
      batteryIndex := 0 }
    orderDropped := true }

/-- Back off a core's best offset by one fine step; `none` when it is already at its
baseline. -/
def backoffCore (config : TunerConfig) (cs : CoreState) : Option CoreState :=
  match cs.bestOffset with
  | none => none
  | some best =>
      if best = cs.baselineOffset then
        none
      else
        let next := retreatTo config cs (best - config.direction * config.fineStep)
        some { cs with bestOffset := some next, currentOffset := next }

/-- Pull an offset down to what the session survived. -/
def pullTo (config : TunerConfig) (survived value : Int) : Int :=
  if config.isMoreAggressive value survived then survived else value

/-- Re-open a quarantined core on proven ground only. -/
def reengageCore (config : TunerConfig) (cs : CoreState) (survived : Int) : CoreState :=
  { cs with
    currentOffset := pullTo config survived cs.currentOffset
    baselineOffset := pullTo config survived cs.baselineOffset
    bestOffset := cs.bestOffset.map (pullTo config survived) }

/-- Put a confirmed core back to confirmation, to validate a finished profile again. -/
def revalidateCore (cs : CoreState) (offset : Int) : CoreState :=
  { cs with
    phase := .confirming
    currentOffset := offset
    bestOffset := some offset
    confirmAttempts := 0
    batteryIndex := 0 }

/-- Reset a core to its most aggressive logged pass, else its baseline. -/
def rollbackCoreToEvidence (cs : CoreState) (mostAggressivePass : Option Int) : CoreState :=
  let rollback := mostAggressivePass.getD cs.baselineOffset
  { cs with
    currentOffset := rollback
    bestOffset := some rollback
    phase := .confirming
    confirmAttempts := 0
    backoffMode := false
    consecutiveBackoffFails := 0
    backoffFailBound := none
    backoffPassBound := none }

end Tuner
end CoreCycler
