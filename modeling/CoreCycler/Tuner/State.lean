import CoreCycler.Library.Directed
import CoreCycler.Tuner.Config

/-!
# The state of one core

`CoreState` is the tuner's record of a core.  Alongside it are what a valid
configuration promises, and the engine's comparisons read as comparisons of
depth.
-/

namespace CoreCycler
namespace Tuner

open Library

/-- Core phase in the auto-tuner state machine. -/
inductive TunerPhase
  | notStarted
  | coarseSearch
  | fineSearch
  | settled
  | confirming
  | confirmed
  | annealing
  | failedConfirm
  | backoffPreconfirm
  | backoffConfirming
deriving DecidableEq, Repr

/-- Per-core state in the auto-tuner state machine. -/
structure CoreState where
  coreId : Nat
  phase : TunerPhase := .notStarted
  currentOffset : Int := 0
  bestOffset : Option Int := none
  provenOffset : Option Int := none
  coarseFailOffset : Option Int := none
  confirmAttempts : Nat := 0
  baselineOffset : Int := 0
  backoffMode : Bool := false
  consecutiveBackoffFails : Nat := 0
  backoffFailBound : Option Int := none
  backoffPassBound : Option Int := none
  inTest : Bool := false
  crashCount : Nat := 0
  crashCooldown : Nat := 0
  thermalAborts : Nat := 0
  cumulativeTestTime : ℚ := 0
  batteryIndex : Nat := 0
  annealStrikes : Int := 0
  annealBarHours : ℚ := 0
  suspicion : ℚ := 0
deriving DecidableEq, Repr

namespace TunerConfig

variable {config : TunerConfig}

/-! ## What a valid configuration promises -/

theorem errorIf_eq_nil {condition : Bool} {message : String} :
    errorIf condition message = [] ↔ condition = false := by
  cases condition <;> simp [errorIf]

theorem Valid.direction (hvalid : config.Valid) : Directed.IsDirection config.direction := by
  simp only [Valid, validate, List.append_eq_nil_iff, errorIf_eq_nil,
    decide_eq_false_iff_not] at hvalid
  rw [Directed.IsDirection]
  tauto

theorem Valid.bound (hvalid : config.Valid) {bound : FieldBound} (hmem : bound ∈ fieldBounds) :
    bound.minimum ≤ bound.value config ∧ bound.value config ≤ bound.maximum := by
  have hnil : config.boundErrors = [] := by
    simp only [Valid, validate, List.append_eq_nil_iff] at hvalid
    tauto
  simp only [boundErrors, List.flatMap_eq_nil_iff, errorIf_eq_nil] at hnil
  simpa using hnil bound hmem

theorem Valid.fineStep_pos (hvalid : config.Valid) : 1 ≤ config.fineStep := by
  have hbound : (1 : ℚ) ≤ config.fineStep :=
    (hvalid.bound (List.mem_of_getElem? (i := 2) rfl)).1
  exact_mod_cast hbound

theorem Valid.fineStep_le (hvalid : config.Valid) : config.fineStep ≤ config.coarseStep := by
  simp only [Valid, validate, List.append_eq_nil_iff, errorIf_eq_nil,
    decide_eq_false_iff_not] at hvalid
  omega

theorem Valid.crashPenaltySteps_pos (hvalid : config.Valid) : 1 ≤ config.crashPenaltySteps := by
  have hbound : (1 : ℚ) ≤ config.crashPenaltySteps :=
    (hvalid.bound (List.mem_of_getElem? (i := 35) rfl)).1
  exact_mod_cast hbound

/-! ## Comparisons as depths -/

/-- How aggressive an offset is. -/
def depth (config : TunerConfig) (offset : Int) : Int := Directed.depth config.direction offset

theorem Valid.start_lt_max (hvalid : config.Valid) :
    config.depth config.startOffset < config.depth config.maxOffset := by
  simp only [Valid, validate, List.append_eq_nil_iff, errorIf_eq_nil,
    decide_eq_false_iff_not, not_le] at hvalid
  have hspan : 0 < config.direction * (config.maxOffset - config.startOffset) := by tauto
  rw [mul_sub] at hspan
  simp only [depth, Directed.depth]
  omega

@[simp] theorem depth_zero : config.depth 0 = 0 := Directed.depth_zero

theorem depth_add (hdir : Directed.IsDirection config.direction) (offset step : Int) :
    config.depth (offset + config.direction * step) = config.depth offset + step :=
  Directed.depth_add_step hdir offset step

theorem depth_sub (hdir : Directed.IsDirection config.direction) (offset step : Int) :
    config.depth (offset - config.direction * step) = config.depth offset - step :=
  Directed.depth_sub_step hdir offset step

theorem depth_inj (hdir : Directed.IsDirection config.direction) {first second : Int} :
    config.depth first = config.depth second ↔ first = second :=
  Directed.depth_inj hdir

theorem depth_eq_zero (hdir : Directed.IsDirection config.direction) {offset : Int} :
    config.depth offset = 0 ↔ offset = 0 := by
  have hinj : config.depth offset = config.depth 0 ↔ offset = 0 := depth_inj hdir
  rwa [depth_zero] at hinj

theorem isMoreAggressive_iff (hdir : Directed.IsDirection config.direction) {a b : Int} :
    config.isMoreAggressive a b = true ↔ config.depth b < config.depth a := by
  rcases hdir with hdir | hdir <;> simp [isMoreAggressive, depth, Directed.depth, hdir]

theorem isMoreAggressive_eq (hdir : Directed.IsDirection config.direction) {a b : Int} :
    config.isMoreAggressive a b = decide (config.depth b < config.depth a) :=
  Bool.eq_iff_iff.mpr (by rw [isMoreAggressive_iff hdir, decide_eq_true_iff])

theorem exceedsMax_iff (hdir : Directed.IsDirection config.direction) {offset : Int} :
    config.exceedsMax offset = true ↔ config.depth config.maxOffset < config.depth offset := by
  rcases hdir with hdir | hdir <;> simp [exceedsMax, depth, Directed.depth, hdir]

theorem atOrPast_iff (hdir : Directed.IsDirection config.direction) {offset bound : Int} :
    config.atOrPast offset bound = true ↔ config.depth offset ≤ config.depth bound := by
  rcases hdir with hdir | hdir <;> simp [atOrPast, depth, Directed.depth, hdir]

end TunerConfig

end Tuner
end CoreCycler
