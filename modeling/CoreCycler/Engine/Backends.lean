import Mathlib.Data.List.Basic

/-!
# Stress configurations

The enumerations and records a stress backend is configured with.  Python's two
ways of turning a member into text are kept apart: `name` is what a lookup by
member name accepts, `str` is what `str(member)` gives.
-/

namespace CoreCycler
namespace Engine

/-- The instruction set a payload uses. -/
inductive StressMode
  | sse
  | avx
  | avx2
  | avx512
  | custom
deriving DecidableEq, Repr

namespace StressMode

def all : List StressMode := [sse, avx, avx2, avx512, custom]

/-- `member.name`. -/
def name : StressMode → String
  | sse => "SSE"
  | avx => "AVX"
  | avx2 => "AVX2"
  | avx512 => "AVX512"
  | custom => "CUSTOM"

/-- `str(member)`. -/
def str (mode : StressMode) : String := "StressMode." ++ mode.name

/-- `StressMode[text]`, `none` where the lookup raises. -/
def ofName? (text : String) : Option StressMode := all.find? fun mode => mode.name == text

@[simp] theorem ofName?_name (mode : StressMode) : ofName? mode.name = some mode := by
  cases mode <;> rfl

end StressMode

/-- The FFT size range of a payload. -/
inductive FFTPreset
  | smallest
  | small
  | large
  | huge
  | all
  | moderate
  | heavy
  | heavyShort
  | custom
deriving DecidableEq, Repr

namespace FFTPreset

def members : List FFTPreset :=
  [smallest, small, large, huge, all, moderate, heavy, heavyShort, custom]

/-- `member.name`. -/
def name : FFTPreset → String
  | smallest => "SMALLEST"
  | small => "SMALL"
  | large => "LARGE"
  | huge => "HUGE"
  | all => "ALL"
  | moderate => "MODERATE"
  | heavy => "HEAVY"
  | heavyShort => "HEAVY_SHORT"
  | custom => "CUSTOM"

/-- `str(member)`. -/
def str (preset : FFTPreset) : String := "FFTPreset." ++ preset.name

/-- `FFTPreset[text]`, `none` where the lookup raises. -/
def ofName? (text : String) : Option FFTPreset :=
  members.find? fun preset => preset.name == text

@[simp] theorem ofName?_name (preset : FFTPreset) : ofName? preset.name = some preset := by
  cases preset <;> rfl

end FFTPreset

/-- Load and idle cycling applied to a running payload. -/
structure DutyCycle where
  burstUs : Nat := 5000
  idleUs : Nat := 5000
  randomPhases : Bool := false
deriving DecidableEq, Repr

/-- What a backend builds its command line from. -/
structure StressConfig where
  mode : StressMode := .sse
  fftPreset : FFTPreset := .small
  threads : Int := 1
  memoryMb : Option Int := none
  memoryCoupled : Bool := false
  tests : Option (List String) := none
  dutyCycle : Option DutyCycle := none
  testSeconds : Option Int := none
deriving DecidableEq, Repr

end Engine
end CoreCycler
