import CoreCycler.Library.Reading
import Mathlib.Tactic
import Mathlib.Data.List.Sort
import Mathlib.Data.String.Basic

/-!
# Regimes, offset masks and workload entries

The workload entries of a battery, of the endurance matrix and of a persisted
hunt are dictionaries read key by key.  `WorkloadEntry` keeps the keys the
tuner reads, each with the JSON type the source checks it for: a missing key is
`none`, and the two flags read through `bool(...)` are their truth value.
-/

namespace CoreCycler
namespace Tuner

/-- The four failure regimes of the battery. -/
inductive Regime
  | boost
  | current
  | transient
  | coupled
deriving DecidableEq, Repr

namespace Regime

/-- The value of the string enumeration. -/
def value : Regime → String
  | boost => "boost"
  | current => "current"
  | transient => "transient"
  | coupled => "coupled"

/-- `list(Regime)`, in declaration order. -/
def all : List Regime := [boost, current, transient, coupled]

theorem mem_all (regime : Regime) : regime ∈ all := by
  cases regime <;> decide

/-- `Regime(value)`, `none` where the constructor raises. -/
def ofValue? (text : String) : Option Regime :=
  all.find? fun regime => regime.value == text

@[simp] theorem ofValue?_value (regime : Regime) : ofValue? regime.value = some regime := by
  cases regime <;> decide

end Regime

/-- What a core that is not under test sits at. -/
inductive Mask
  | isolated
  | live
deriving DecidableEq, Repr

/-- How a workload drives its payload. -/
inductive Profile
  | sustained
  | spectrum
  | transient
deriving DecidableEq, Repr

namespace Profile

def value : Profile → String
  | sustained => "sustained"
  | spectrum => "spectrum"
  | transient => "transient"

def all : List Profile := [sustained, spectrum, transient]

def ofValue? (text : String) : Option Profile :=
  all.find? fun profile => profile.value == text

@[simp] theorem ofValue?_value (profile : Profile) :
    ofValue? profile.value = some profile := by
  cases profile <;> decide

end Profile

/-- One serialized workload: a battery, endurance or hunt dictionary. -/
structure WorkloadEntry where
  regime : Option String := none
  backend : Option String := none
  stressMode : Option String := none
  fftPreset : Option String := none
  profile : Option String := none
  threads : Option Int := none
  tests : Option (List String) := none
  memoryCoupled : Bool := false
  randomPhases : Bool := false
  durationSeconds : Option Int := none
  kind : Option String := none
deriving DecidableEq, Repr

/-- The registered stress backends, sorted. -/
def backendRegistry : List String := ["mprime", "stress-ng", "stressapptest", "y-cruncher"]

/-- The y-cruncher component tests a workload may name. -/
def validTags : List String := ["BKT", "BBP", "SFTv4", "SNT", "SVT", "FFTv4", "N63", "VT3"]

/-- `not value.strip()`. -/
def isBlank (text : String) : Bool := text.toList.all Library.Reading.isSpace

/-- A string field that is present and not blank. -/
def requiredText (field : Option String) : Bool :=
  match field with
  | some text => !isBlank text
  | none => false

/-- Validate one serialized workload entry. -/
def workloadErrors (name : String) (index : Nat) (item : WorkloadEntry) : List String :=
  match item.regime.bind Regime.ofValue? with
  | none =>
      [s!"{name}[{index}].regime must be one of ['boost', 'coupled', 'current', 'transient']"]
  | some workloadRegime =>
      if !(requiredText item.backend && requiredText item.stressMode &&
          requiredText item.fftPreset) then
        [s!"{name}[{index}] requires non-blank string backend, stress_mode, fft_preset"]
      else
        let backend := item.backend.getD ""
        if backend ∉ backendRegistry then
          [s!"{name}[{index}].backend '{backend}' is not a registered backend " ++
            "(mprime, stress-ng, stressapptest, y-cruncher)"]
        else
          match Profile.ofValue? (item.profile.getD "sustained") with
          | none =>
              [s!"{name}[{index}].profile must be one of ['spectrum', 'sustained', 'transient']"]
          | some profile =>
              -- The transient regime and the transient profile go together, either way.
              if workloadRegime = .transient ∧ profile ≠ .transient then
                [s!"{name}[{index}].regime transient requires profile transient"]
              else if profile = .transient ∧ workloadRegime ≠ .transient then
                [s!"{name}[{index}].profile transient requires regime transient"]
              else if item.threads.any (· < 1) then
                [s!"{name}[{index}].threads must be a positive integer"]
              else
                let unknown := ((item.tests.getD []).dedup.filter
                  (· ∉ validTags)).insertionSort (· ≤ ·)
                if unknown ≠ [] then
                  [s!"{name}[{index}].tests has unknown tags: " ++ ", ".intercalate unknown]
                else
                  []

/-- The shipped battery: at least one workload for each regime. -/
def defaultBattery : List WorkloadEntry :=
  [ { regime := some "boost", backend := some "mprime", stressMode := some "SSE"
      fftPreset := some "SMALL", profile := some "sustained", threads := some 1 },
    { regime := some "boost", backend := some "y-cruncher", stressMode := some "AVX2"
      fftPreset := some "SMALL", profile := some "sustained", threads := some 1
      tests := some ["BKT"] },
    { regime := some "current", backend := some "mprime", stressMode := some "AVX2"
      fftPreset := some "SMALL", profile := some "sustained", threads := some 2 },
    { regime := some "current", backend := some "y-cruncher", stressMode := some "AVX2"
      fftPreset := some "SMALL", profile := some "sustained", threads := some 2
      tests := some ["FFTv4", "N63"] },
    { regime := some "transient", backend := some "mprime", stressMode := some "AVX2"
      fftPreset := some "SMALL", profile := some "transient", threads := some 2 },
    { regime := some "coupled", backend := some "mprime", stressMode := some "AVX2"
      fftPreset := some "LARGE", profile := some "sustained", threads := some 2
      memoryCoupled := true },
    { regime := some "coupled", backend := some "y-cruncher", stressMode := some "AVX2"
      fftPreset := some "SMALL", profile := some "sustained", threads := some 2
      tests := some ["VT3"], memoryCoupled := true } ]

/-- The regimes coarse search runs. -/
def coarseRegimes : List Regime := [.current, .transient]

/-- The regimes some entry of a battery implements. -/
def regimesCovered (battery : List WorkloadEntry) : List Regime :=
  battery.filterMap fun entry => entry.regime.bind Regime.ofValue?

end Tuner
end CoreCycler
