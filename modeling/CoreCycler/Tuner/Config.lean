import CoreCycler.Engine.Backends
import CoreCycler.Tuner.Regime
import Mathlib.Data.Rat.Floor

/-!
# The tuner configuration

`TunerConfig` carries every search parameter with its default, and `validate`
collects every error of a requested configuration.  Durations and shares that
the source keeps as floats are rationals.  The direction is -1 for undervolting
and 1 for overvolting; `isMoreAggressive`, `exceedsMax` and `atOrPast` are the
engine's comparisons along it.
-/

namespace CoreCycler
namespace Tuner

open Engine

/-- Configuration of the automated Curve Optimizer tuner. -/
structure TunerConfig where
  startOffset : Int := 0
  coarseStep : Int := 5
  fineStep : Int := 1
  direction : Int := -1
  biosGuardBandSteps : Int := 1
  searchDurationSeconds : Int := 60
  confirmDurationSeconds : Int := 300
  validateDurationSeconds : Int := 300
  maxOffset : Int := -50
  maxConfirmRetries : Int := 2
  coresToTest : Option (List Int) := none
  testOrder : String := "sequential"
  backend : String := "mprime"
  stressMode : String := "SSE"
  fftPreset : String := "SMALL"
  stretchThresholdPct : ℚ := 3
  midpointJumpThreshold : Int := 3
  abortOnConsecutiveFailures : Int := 0
  apparatusFailureStreak : Int := 12
  resumeCrashQuarantineThreshold : Int := 3
  maxUnattributedCrashHunts : Int := 2
  allowMissingThermalSensor : Bool := false
  maxTemperatureC : ℚ := 95
  overTempGraceSeconds : ℚ := 3
  overTempHardMarginC : ℚ := 8
  maxThermalRetries : Int := 3
  thermalCooldownSeconds : ℚ := 5
  maxApparatusRetries : Int := 3
  inheritCurrent : Bool := false
  autoValidate : Bool := true
  backoffPreconfirmMultiplier : ℚ := 2
  battery : List WorkloadEntry := defaultBattery
  coarseRegimes : List String := coarseRegimes.map Regime.value
  regimeFloorPct : ℚ := 15
  probeBaseSeconds : Int := 1800
  probeMttfMultiplier : ℚ := 4
  probeLevelMultiplier : ℚ := 3 / 2
  onsetFailureSeconds : Int := 60
  onsetLaunchSeconds : Int := 30
  coSettleSeconds : Int := 5
  suspicionSeparation : ℚ := 2
  suspicionMinFailures : Int := 3
  annealBankHours : ℚ := 6
  annealMaxStrikes : Int := 3
  maxCoreTimeSeconds : Int := 7200
  crashPenaltySteps : Int := 3
  validateTransitions : Bool := true
  validateSpectrum : Bool := true
  spectrumSlotSeconds : Int := 60
  validateMemory : Bool := true
  validateSoak : Bool := true
  soakDurationSeconds : Int := 1800
  endurance : Bool := true
  enduranceWorkloads : List WorkloadEntry := defaultBattery
  enduranceSlotSeconds : Int := 600
  enduranceSlotMaxSeconds : Int := 3600
deriving DecidableEq, Repr

/-- One row of `FIELD_BOUNDS`. -/
structure FieldBound where
  name : String
  minimum : ℚ
  maximum : ℚ
  value : TunerConfig → ℚ

def fieldBounds : List FieldBound :=
  [ ⟨"start_offset", -50, 30, fun config => config.startOffset⟩,
    ⟨"coarse_step", 1, 15, fun config => config.coarseStep⟩,
    ⟨"fine_step", 1, 5, fun config => config.fineStep⟩,
    ⟨"direction", -1, 1, fun config => config.direction⟩,
    ⟨"bios_guard_band_steps", 0, 10, fun config => config.biosGuardBandSteps⟩,
    ⟨"search_duration_seconds", 10, 600, fun config => config.searchDurationSeconds⟩,
    ⟨"confirm_duration_seconds", 30, 1800, fun config => config.confirmDurationSeconds⟩,
    ⟨"validate_duration_seconds", 30, 3600, fun config => config.validateDurationSeconds⟩,
    ⟨"max_offset", -50, 30, fun config => config.maxOffset⟩,
    ⟨"max_confirm_retries", 0, 5, fun config => config.maxConfirmRetries⟩,
    ⟨"stretch_threshold_pct", 0, 100, fun config => config.stretchThresholdPct⟩,
    ⟨"midpoint_jump_threshold", 1, 100, fun config => config.midpointJumpThreshold⟩,
    ⟨"abort_on_consecutive_failures", 0, 100,
      fun config => config.abortOnConsecutiveFailures⟩,
    ⟨"apparatus_failure_streak", 0, 100, fun config => config.apparatusFailureStreak⟩,
    ⟨"resume_crash_quarantine_threshold", 1, 20,
      fun config => config.resumeCrashQuarantineThreshold⟩,
    ⟨"max_unattributed_crash_hunts", 1, 10, fun config => config.maxUnattributedCrashHunts⟩,
    ⟨"max_temperature_c", 60, 110, fun config => config.maxTemperatureC⟩,
    ⟨"over_temp_grace_seconds", 0, 60, fun config => config.overTempGraceSeconds⟩,
    ⟨"over_temp_hard_margin_c", 0, 30, fun config => config.overTempHardMarginC⟩,
    ⟨"max_thermal_retries", 0, 20, fun config => config.maxThermalRetries⟩,
    ⟨"thermal_cooldown_seconds", 0, 3600, fun config => config.thermalCooldownSeconds⟩,
    ⟨"max_apparatus_retries", 0, 20, fun config => config.maxApparatusRetries⟩,
    ⟨"backoff_preconfirm_multiplier", 1 / 100, 100,
      fun config => config.backoffPreconfirmMultiplier⟩,
    ⟨"regime_floor_pct", 1 / 100, 25, fun config => config.regimeFloorPct⟩,
    ⟨"probe_base_seconds", 60, 86400, fun config => config.probeBaseSeconds⟩,
    ⟨"probe_mttf_multiplier", 1 / 100, 100, fun config => config.probeMttfMultiplier⟩,
    ⟨"probe_level_multiplier", 1, 10, fun config => config.probeLevelMultiplier⟩,
    ⟨"onset_failure_seconds", 0, 3600, fun config => config.onsetFailureSeconds⟩,
    ⟨"onset_launch_seconds", 10, 3600, fun config => config.onsetLaunchSeconds⟩,
    ⟨"co_settle_seconds", 0, 60, fun config => config.coSettleSeconds⟩,
    ⟨"suspicion_separation", 1, 100, fun config => config.suspicionSeparation⟩,
    ⟨"suspicion_min_failures", 1, 100, fun config => config.suspicionMinFailures⟩,
    ⟨"anneal_bank_hours", 1 / 100, 8760, fun config => config.annealBankHours⟩,
    ⟨"anneal_max_strikes", 1, 10, fun config => config.annealMaxStrikes⟩,
    ⟨"max_core_time_seconds", 1800, 14400, fun config => config.maxCoreTimeSeconds⟩,
    ⟨"crash_penalty_steps", 1, 10, fun config => config.crashPenaltySteps⟩,
    ⟨"spectrum_slot_seconds", 30, 600, fun config => config.spectrumSlotSeconds⟩,
    ⟨"soak_duration_seconds", 60, 14400, fun config => config.soakDurationSeconds⟩,
    ⟨"endurance_slot_seconds", 60, 14400, fun config => config.enduranceSlotSeconds⟩,
    ⟨"endurance_slot_max_seconds", 60, 14400, fun config => config.enduranceSlotMaxSeconds⟩ ]

def testOrders : List String :=
  ["sequential", "round_robin", "weakest_first", "ccd_alternating", "ccd_round_robin"]

/-- The `:g` format of the bounds, which are integers or hundredths. -/
def formatGeneral (value : ℚ) : String :=
  if value.den = 1 then toString value.num
  else "0." ++ (if (value * 100).num < 10 then "0" else "") ++ toString (value * 100).num

/-- A Python list of strings as its `repr`. -/
def listRepr (items : List String) : String :=
  "[" ++ ", ".intercalate (items.map fun item => "'" ++ item ++ "'") ++ "]"

def sortedText (items : List String) : List String := items.insertionSort (· ≤ ·)

namespace TunerConfig

/-- One message when `condition` holds. -/
def errorIf (condition : Bool) (message : String) : List String :=
  if condition then [message] else []

def boundErrors (config : TunerConfig) : List String :=
  fieldBounds.flatMap fun bound =>
    errorIf (bound.value config < bound.minimum ∨ bound.maximum < bound.value config)
      s!"{bound.name} must be {formatGeneral bound.minimum}-{formatGeneral bound.maximum}"

def coresErrors (config : TunerConfig) : List String :=
  match config.coresToTest with
  | none => []
  | some cores =>
      if cores = [] then
        ["cores_to_test is empty - no cores to test"]
      else if cores.any (· < 0) then
        ["cores_to_test must contain non-negative integer core IDs"]
      else
        errorIf (!cores.Nodup) "cores_to_test contains duplicate core IDs"

/-- The checks of `coarse_regimes` against a battery without errors. -/
def coarseErrors (config : TunerConfig) : List String :=
  let validRegimes := Regime.all.map Regime.value
  if config.coarseRegimes = [] then
    ["coarse_regimes must name at least one regime"]
  else
    let invalidCoarse := config.coarseRegimes.zipIdx.filter fun entry => entry.1 ∉ validRegimes
    if invalidCoarse ≠ [] then
      invalidCoarse.map fun entry =>
        s!"coarse_regimes[{entry.2}] must be one of {listRepr (sortedText validRegimes)}"
    else
      let covered := (regimesCovered config.battery).map Regime.value
      let missingCoarse := sortedText (config.coarseRegimes.dedup.filter (· ∉ covered))
      errorIf (!config.coarseRegimes.Nodup) "coarse_regimes contains duplicate regimes" ++
        errorIf (missingCoarse ≠ [])
          ("coarse_regimes not present in battery: " ++ ", ".intercalate missingCoarse)

def batteryErrors (config : TunerConfig) : List String :=
  let entryErrors := config.battery.zipIdx.flatMap fun entry =>
    workloadErrors "battery" entry.2 entry.1
  entryErrors ++
    if config.battery = [] then
      ["battery must have at least one workload"]
    else if entryErrors ≠ [] then
      []
    else
      let missing := sortedText ((Regime.all.filter
        (· ∉ regimesCovered config.battery)).map Regime.value)
      errorIf (missing ≠ []) ("battery does not cover regimes: " ++ ", ".intercalate missing) ++
        config.coarseErrors

/-- Every configuration error, without changing any requested value. -/
def validate (config : TunerConfig) (coRange : Option (Int × Int)) : List String :=
  config.boundErrors ++
  errorIf (config.direction ≠ -1 ∧ config.direction ≠ 1)
    s!"direction must be -1 or 1, got {config.direction}" ++
  errorIf (config.coarseStep < config.fineStep)
    s!"fine_step ({config.fineStep}) must be <= coarse_step ({config.coarseStep})" ++
  errorIf (config.direction * (config.maxOffset - config.startOffset) ≤ 0)
    "max_offset must lie beyond start_offset in the configured direction" ++
  (match coRange with
    | none => []
    | some (minimum, maximum) =>
        errorIf (config.startOffset < minimum ∨ maximum < config.startOffset)
          s!"start_offset must be within the detected CO range {minimum}-{maximum}" ++
        errorIf (config.maxOffset < minimum ∨ maximum < config.maxOffset)
          s!"max_offset must be within the detected CO range {minimum}-{maximum}") ++
  errorIf (config.testOrder ∉ testOrders) s!"test_order must be one of {listRepr testOrders}" ++
  errorIf (config.stressMode ∉ StressMode.all.map StressMode.name)
    s!"stress_mode must be one of {listRepr (sortedText (StressMode.all.map StressMode.name))}" ++
  errorIf (config.fftPreset ∉ FFTPreset.members.map FFTPreset.name)
    s!"fft_preset must be one of {listRepr (sortedText (FFTPreset.members.map FFTPreset.name))}" ++
  config.coresErrors ++
  errorIf (0 < config.apparatusFailureStreak ∧
      config.apparatusFailureStreak ≤ config.maxConfirmRetries)
    ("apparatus_failure_streak must exceed max_confirm_retries " ++
      "(legitimate confirm retries would trip it)") ++
  config.batteryErrors ++
  config.enduranceWorkloads.zipIdx.flatMap (fun entry =>
    workloadErrors "endurance_workloads" entry.2 entry.1) ++
  errorIf (config.endurance ∧ !config.autoValidate) "endurance requires auto_validate" ++
  errorIf (config.endurance ∧ config.enduranceWorkloads = [])
    "endurance requires at least one endurance_workloads entry" ++
  errorIf (config.enduranceSlotMaxSeconds < config.enduranceSlotSeconds)
    "endurance_slot_max_seconds must be >= endurance_slot_seconds"

/-- A configuration `start` and `resume` accept. -/
def Valid (config : TunerConfig) : Prop := config.validate none = []

instance (config : TunerConfig) : Decidable config.Valid :=
  inferInstanceAs (Decidable (_ = _))

/-! ## Comparisons along the direction -/

/-- Check if an offset exceeds `max_offset` in the configured direction. -/
def exceedsMax (config : TunerConfig) (offset : Int) : Bool :=
  if config.direction < 0 then offset < config.maxOffset else config.maxOffset < offset

/-- Whether offset `a` is more aggressive than `b`. -/
def isMoreAggressive (config : TunerConfig) (a b : Int) : Bool :=
  if config.direction = -1 then a < b else b < a

/-- Whether an offset is at or past a bound, coming back towards stock. -/
def atOrPast (config : TunerConfig) (offset bound : Int) : Bool :=
  if config.direction < 0 then bound ≤ offset else offset ≤ bound

end TunerConfig

end Tuner
end CoreCycler
