import CoreCycler.Engine.Backends
import CoreCycler.Tuner.Battery
import CoreCycler.Tuner.Bisect

/-!
# Launching a slot

Every worker start builds a stress configuration and a snapshot of its workload.
An ordinary slot persists the snapshot as crash context (`checkpointWorker`), and a
hunt launches its probes from it (`runHuntSlot`).  A launch is `none` where the
source raises or reports a startup failure.
-/

namespace CoreCycler
namespace Tuner

open Engine

/-! ## What a launch reads -/

/-- The number of logical CPUs of each physical core. -/
structure Topology where
  logicalCpus : CoreId → Option Nat

/-- The engine as a launch finds it. -/
structure LaunchContext where
  config : TunerConfig
  topology : Topology
  /-- The keys of `_core_states`. -/
  coreIds : List CoreId
  hunting : Bool := false
  huntWorkload : Option WorkloadEntry := none
  validationStage : Nat := 0
  inRequeue : Bool := false
  enduranceWorkload : Nat := 0
  /-- `_battery_entry` of the reported core. -/
  battery : Option WorkloadEntry := none
  /-- The battery regime at that core's cursor. -/
  batteryRegime : Option String := none

/-- Python's `given or fallback` on strings. -/
def orText (given : Option String) (fallback : String) : String :=
  match given with
  | some text => if text = "" then fallback else text
  | none => fallback

@[simp] theorem orText_self (text : String) : orText (some text) text = text := by
  simp [orText]

@[simp] theorem orText_none (fallback : String) : orText none fallback = fallback := rfl

/-- The duty cycle a battery entry asks for, if it is a transient regime. -/
def dutyCycleFor (entry : WorkloadEntry) : Option DutyCycle :=
  if entry.profile = some "transient" then some { randomPhases := entry.randomPhases } else none

/-- Clamp a workload's requested thread count to the core's SMT width. -/
def threadsFor (topology : Topology) (core : CoreId) (requested : Option Int) : Int :=
  let width : Int := max 1 ((topology.logicalCpus core).getD 1 : Nat)
  match requested with
  | none => width
  | some threads => max 1 (min threads width)

/-- Clamping twice clamps once. -/
theorem threadsFor_threadsFor (topology : Topology) (core : CoreId) (requested : Option Int) :
    threadsFor topology core (some (threadsFor topology core requested)) =
      threadsFor topology core requested := by
  cases requested <;> simp only [threadsFor] <;> omega

/-- A backend that can be had by name: the engine's own or a registered one. -/
def getBackendForName (config : TunerConfig) (name : String) : Option String :=
  if name = config.backend ∨ name ∈ backendRegistry then some name else none

namespace LaunchContext

/-- The workload entry driving the current battery, hunt or endurance slot. -/
def activeWorkload (context : LaunchContext) : Option WorkloadEntry :=
  if context.hunting ∧ context.huntWorkload ≠ none then
    context.huntWorkload
  else if context.validationStage = 9 ∧ !context.inRequeue then
    context.config.enduranceWorkloads[context.enduranceWorkload]?
  else if context.validationStage = 0 then
    context.battery
  else
    none

/-- The single regime whose verdict the slot produces, if any. -/
def slotRegime (context : LaunchContext) : Option String :=
  if context.hunting then
    none
  else if context.validationStage = 9 ∧ !context.inRequeue then
    (context.config.enduranceWorkloads[context.enduranceWorkload]?).bind fun workload =>
      workload.regime.filter (· ≠ "")
  else if 0 < context.validationStage then
    none
  else
    context.batteryRegime

/-- Backend, mode, preset and requested threads of the active slot. -/
structure Recipe where
  backend : String
  stressMode : String
  fftPreset : String
  threads : Option Int

def activeStressConfig (context : LaunchContext) : Option Recipe :=
  match context.activeWorkload with
  | none =>
      some
        { backend := context.config.backend
          stressMode := context.config.stressMode
          fftPreset := context.config.fftPreset
          threads := none }
  | some workload => do
      let backend ← workload.backend
      let stressMode ← workload.stressMode
      let fftPreset ← workload.fftPreset
      return { backend, stressMode, fftPreset, threads := workload.threads }

/-- What a launch site tells the snapshot. -/
structure Given where
  backend : Option String := none
  stressMode : Option String := none
  fftPreset : Option String := none
  threads : Option Int := none
  profile : Option String := none
  tests : Option (List String) := none

/-- Serializable recipe for replaying the workload now launching. -/
def workloadSnapshot (context : LaunchContext) (given : Given) : WorkloadEntry :=
  let workload := context.activeWorkload.getD {}
  let selectedProfile := orText given.profile (workload.profile.getD "sustained")
  let regime := orText workload.regime
    (context.slotRegime.getD
      (if selectedProfile = "transient" then "transient"
      else if selectedProfile = "spectrum" then "boost"
      else "current"))
  { workload with
    regime := some regime
    backend := some (orText given.backend (workload.backend.getD context.config.backend))
    stressMode :=
      some (orText given.stressMode (workload.stressMode.getD context.config.stressMode))
    fftPreset := some (orText given.fftPreset (workload.fftPreset.getD context.config.fftPreset))
    profile := some selectedProfile
    threads := if given.threads.isSome then given.threads else workload.threads
    tests := if given.tests.getD [] ≠ [] then given.tests else workload.tests }

end LaunchContext

/-! ## Worker starts -/

/-- A launched worker: its backend, its stress configuration, and what
`_checkpoint_worker` is given. -/
structure Launched where
  backend : String
  stress : StressConfig
  workload : WorkloadEntry
  cores : List CoreId
deriving DecidableEq, Repr

/-- `tuple(tests) if tests else None`. -/
def testsOf (workload : WorkloadEntry) : Option (List String) := workload.tests.filter (· ≠ [])

/-- The seconds each component test gets of a slot. -/
def testSeconds (duration : Int) (tests : Option (List String)) : Option Int :=
  tests.map fun tags => max 1 (duration / (tags.length : Int))

/-- Launch a worker for one core. -/
def startWorker (context : LaunchContext) (core : CoreId) (duration : Int) (spectrum : Bool)
    (dutyCycle : Option DutyCycle) : Option Launched := do
  let _ ← context.topology.logicalCpus core
  let recipe ← context.activeStressConfig
  let workerProfile :=
    if dutyCycle.isSome then "transient" else if spectrum then "spectrum" else "sustained"
  let active := context.activeWorkload.getD {}
  let tests := testsOf active
  let stress : StressConfig :=
    -- Names that are not known fall back to a mode and a size of the code's own.
    { mode := (StressMode.ofName? recipe.stressMode.toUpper).getD .sse
      fftPreset := (FFTPreset.ofName? recipe.fftPreset.toUpper).getD .small
      threads := threadsFor context.topology core recipe.threads
      memoryCoupled := active.memoryCoupled
      tests := tests
      dutyCycle := dutyCycle
      testSeconds := testSeconds duration tests }
  let backend ← getBackendForName context.config recipe.backend
  let workload := context.workloadSnapshot
    { backend := some recipe.backend
      stressMode := some recipe.stressMode
      fftPreset := some recipe.fftPreset
      threads := some stress.threads
      profile := some workerProfile
      tests := tests }
  return {
    backend, stress
    workload := { workload with durationSeconds := some duration, kind := some "solo" }
    cores := [core] }

/-- Launch every core's process simultaneously on a workload that names its own backend,
mode, preset and threads. -/
def startWorkloadParallel (context : LaunchContext) (cores : List CoreId) (duration : Int)
    (memoryMb : Option Int) (workload : WorkloadEntry) : Option Launched := do
  let first ← cores.head?
  let mode ← workload.stressMode.bind fun text => StressMode.ofName? text.toUpper
  let fftPreset ← workload.fftPreset.bind fun text => FFTPreset.ofName? text.toUpper
  let tests := testsOf workload
  let backend ← workload.backend.bind (getBackendForName context.config)
  return {
    backend
    stress :=
      { mode, fftPreset, memoryMb
        threads := threadsFor context.topology first workload.threads
        memoryCoupled := workload.memoryCoupled
        tests := tests
        testSeconds := testSeconds duration tests
        dutyCycle := dutyCycleFor workload }
    workload := { workload with durationSeconds := some duration, kind := some "parallel" }
    cores }

/-- Launch every core's process simultaneously on the configured mode and preset. -/
def startPlainParallel (context : LaunchContext) (cores : List CoreId) (duration : Int)
    (backend : Option String) (memoryMb : Option Int) : Option Launched := do
  let _ ← cores.head?
  let stress : StressConfig :=
    { mode := (StressMode.ofName? context.config.stressMode.toUpper).getD .sse
      fftPreset := (FFTPreset.ofName? context.config.fftPreset.toUpper).getD .small
      threads := 2
      memoryMb }
  let name := backend.getD context.config.backend
  let workload := context.workloadSnapshot
    { backend := some name
      stressMode := some stress.mode.str
      fftPreset := some stress.fftPreset.str
      threads := some stress.threads
      profile := some "sustained" }
  return {
    backend := name, stress
    workload := { workload with durationSeconds := some duration, kind := some "parallel" }
    cores }

/-- `_start_multi_core_worker`: with a workload of its own or without. -/
def startMultiCoreWorker (context : LaunchContext) (cores : List CoreId) (duration : Int)
    (backend : Option String) (memoryMb : Option Int) (workload : Option WorkloadEntry) :
    Option Launched :=
  match workload with
  | some workload => startWorkloadParallel context cores duration memoryMb workload
  | none => startPlainParallel context cores duration backend memoryMb

/-- `workload.get("threads") or 2`. -/
def transitionThreads (workload : WorkloadEntry) : Int :=
  match workload.threads with
  | none => 2
  | some threads => if threads = 0 then 2 else threads

/-- Launch load and idle cycling over the cores. -/
def startRapidTransitionWorker (context : LaunchContext) (cores : List CoreId)
    (workload : WorkloadEntry) : Option Launched := do
  let mode ← workload.stressMode.bind fun text => StressMode.ofName? text.toUpper
  let fftPreset ← workload.fftPreset.bind fun text => FFTPreset.ofName? text.toUpper
  let backend ← workload.backend.bind (getBackendForName context.config)
  return {
    backend
    stress :=
      { mode, fftPreset
        threads := transitionThreads workload }
    workload, cores }

/-! ## Ordinary slots -/

/-- The slots outside a hunt that put a load on the machine. -/
inductive OrdinarySlot
  /-- A search slot of a core's battery. -/
  | battery (state : BatteryState) (weights : String → ℚ) (rotation : Nat) (duration : Int)
  | stage1 (core : CoreId)
  | stage2 (profile : List CoreId)
  /-- One of the two halves of the validated cores. -/
  | stage3 (half : List CoreId)
  | stage4 (profile : List CoreId)
  | stage5 (core : CoreId)
  /-- `memoryMb` is each lane's share of the memory. -/
  | stage6 (profile : List CoreId) (memoryMb : Int)
  | enduranceSolo (workload : Nat) (duration : Int) (core : CoreId)
  | enduranceAllCore (workload : Nat) (duration : Int) (profile : List CoreId)

namespace OrdinarySlot

/-- The cores a slot loads; a profile is validated in ascending order. -/
def cores : OrdinarySlot → List CoreId
  | battery state _ _ _ => [state.core.coreId]
  | stage1 core => [core]
  | stage2 profile => Bisect.sorted profile
  | stage3 half => half
  | stage4 profile => Bisect.sorted profile
  | stage5 core => [core]
  | stage6 profile _ => Bisect.sorted profile
  | enduranceSolo _ _ core => [core]
  | enduranceAllCore _ _ profile => Bisect.sorted profile

end OrdinarySlot

/-- Launch an ordinary slot. -/
def launchSlot (context : LaunchContext) : OrdinarySlot → Option Launched
  | .battery state weights rotation duration => do
      let entry ← batteryEntry context.config state weights rotation
      startWorker
        { context with
          hunting := false
          validationStage := 0
          battery := some entry
          batteryRegime := activeRegime context.config state weights }
        state.core.coreId duration (entry.profile = some "spectrum") (dutyCycleFor entry)
  | .stage1 core =>
      startWorker { context with hunting := false, validationStage := 1 } core
        context.config.validateDurationSeconds false none
  | .stage2 profile =>
      startMultiCoreWorker { context with hunting := false, validationStage := 2 }
        (Bisect.sorted profile) context.config.validateDurationSeconds none none none
  | .stage3 half =>
      startMultiCoreWorker { context with hunting := false, validationStage := 3 } half
        context.config.validateDurationSeconds none none none
  | .stage4 profile =>
      let context := { context with hunting := false, validationStage := 4 }
      -- The snapshot is taken before the launch, so that a crash under it can be replayed.
      let checkpoint := context.workloadSnapshot { threads := some 2, profile := some "spectrum" }
      startRapidTransitionWorker context (Bisect.sorted profile)
        { checkpoint with
          durationSeconds := some context.config.validateDurationSeconds
          kind := some "rapid_transition" }
  | .stage5 core =>
      startWorker { context with hunting := false, validationStage := 5 } core
        context.config.spectrumSlotSeconds true none
  | .stage6 profile memoryMb =>
      startMultiCoreWorker { context with hunting := false, validationStage := 6 }
        (Bisect.sorted profile) context.config.validateDurationSeconds (some "stressapptest")
        (some memoryMb) none
  | .enduranceSolo index duration core => do
      let workload ← context.config.enduranceWorkloads[index]?
      startWorker
        { context with
          hunting := false
          validationStage := 9
          inRequeue := false
          enduranceWorkload := index }
        core duration (workload.profile = some "spectrum") (dutyCycleFor workload)
  | .enduranceAllCore index duration profile => do
      let workload ← context.config.enduranceWorkloads[index]?
      -- A spectrum has no launch on all cores.
      if workload.profile = some "spectrum" then none
      else
        startMultiCoreWorker
          { context with
            hunting := false
            validationStage := 9
            inRequeue := false
            enduranceWorkload := index }
          (Bisect.sorted profile) duration none none (some workload)

/-! ## Crash context and replay -/

/-- Cores whose exact crash-time journal value was not stock. -/
def huntCandidates (coreIds : List CoreId) (vector : List (CoreId × Int)) : List CoreId :=
  Bisect.sorted ((vector.filter fun entry => entry.1 ∈ coreIds ∧ entry.2 ≠ 0).map Prod.fst)

/-- Persist crash context before a worker of an ordinary slot starts; `none` when no core
carries a live offset. -/
def checkpointWorker (coreIds : List CoreId) (vector : List (CoreId × Int))
    (launched : Launched) : Except String (Option Bisect.HuntState) :=
  let candidates := huntCandidates coreIds vector
  if candidates = [] then
    .ok none
  else do
    let context ← Bisect.begin candidates
      (Bisect.sorted (launched.cores.filter (· ∈ coreIds))) 0
    let checkpoint := { context with vector := vector, workload := some launched.workload }
    -- `to_json` refuses what `from_json` would not read back.
    Bisect.validateState checkpoint
    return some checkpoint

/-- Launch a probe of a hunt: the load that was running, for another duration. -/
def runHuntSlot (context : LaunchContext) (hunt : Bisect.HuntState) (duration : Int) :
    Option Launched := do
  let context :=
    { context with hunting := true, huntWorkload := hunt.workload, validationStage := 0 }
  let known := hunt.loaded.filter (· ∈ context.coreIds)
  let loaded := if known ≠ [] then known else (Bisect.sorted context.coreIds).take 1
  let reporter ← loaded.head?
  let workload := hunt.workload.getD {}
  let parallel := startMultiCoreWorker context loaded duration none none (some workload)
  let solo := startWorker context reporter duration (workload.profile = some "spectrum")
    (dutyCycleFor workload)
  match workload.kind with
  | some "rapid_transition" => startRapidTransitionWorker context loaded workload
  -- A soak watches the machine without a payload.
  | some "soak" => none
  | some "parallel" => parallel
  | some "solo" => solo
  | _ => if 1 < loaded.length then parallel else solo

end Tuner
end CoreCycler
