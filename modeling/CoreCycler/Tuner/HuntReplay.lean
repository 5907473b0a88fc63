import CoreCycler.Tuner.HuntIsolation
import CoreCycler.Tuner.Slots

/-!
# What a hunt replays

The snapshot a slot persists and the launch a hunt makes from it are read as an
encoding and its decoding.  A solo snapshot names exactly the recipe it was taken
from, so decoding gives the configuration back; a parallel slot without a workload
of its own writes `str(mode)`, which no lookup by name accepts.
-/

namespace CoreCycler
namespace Tuner

open Engine Bisect

/-- One load: everything but the durations and the cores' offsets. -/
def SameLoad (original replayed : Launched) : Prop :=
  replayed.backend = original.backend ∧
    { replayed.stress with testSeconds := original.stress.testSeconds } = original.stress

instance (original replayed : Launched) : Decidable (SameLoad original replayed) :=
  inferInstanceAs (Decidable (_ ∧ _))

namespace OrdinarySlot

/-- The slots launched in parallel on the configured mode and preset. -/
def isPlainParallel : OrdinarySlot → Bool
  | stage2 _ => true
  | stage3 _ => true
  | stage6 _ _ => true
  | _ => false

end OrdinarySlot

variable {context : LaunchContext} {launched : Launched} {hunt : HuntState}

/-! ## The persisted context -/

@[simp] theorem sorted_sorted (cores : List CoreId) : sorted (sorted cores) = sorted cores :=
  sorted_of_pairwise (sorted_pairwise cores)

/-- A checkpoint is a hunt just opened, with the slot's snapshot. -/
theorem checkpointWorker_opened {coreIds : List CoreId} {vector : List (CoreId × Int)}
    (hcheckpoint : checkpointWorker coreIds vector launched = .ok (some hunt)) :
    launched.cores.filter (· ∈ coreIds) ≠ [] ∧ validateState hunt = .ok () ∧
      hunt =
        { opened (huntCandidates coreIds vector)
            (sorted (launched.cores.filter (· ∈ coreIds))) 0 with
          vector := vector
          workload := some launched.workload } := by
  simp only [checkpointWorker] at hcheckpoint
  split_ifs at hcheckpoint with hempty
  · simp at hcheckpoint
  cases hbegin : Bisect.begin (huntCandidates coreIds vector)
      (sorted (launched.cores.filter (· ∈ coreIds))) 0 with
  | error message => simp [hbegin] at hcheckpoint
  | ok state =>
      obtain ⟨-, ⟨hloaded, -⟩, -, rfl⟩ := begin_eq_ok_iff.mp hbegin
      simp only [hbegin, ok_bind] at hcheckpoint
      cases hcheck : validateState
          { opened (huntCandidates coreIds vector)
              (sorted (launched.cores.filter (· ∈ coreIds))) 0 with
            vector := vector
            workload := some launched.workload } with
      | error message => simp [hcheck] at hcheckpoint
      | ok _ =>
          simp only [hcheck, ok_bind] at hcheckpoint
          obtain rfl := Option.some.inj (Except.ok.inj hcheckpoint)
          exact ⟨by simpa using hloaded, hcheck, rfl⟩

/-- A checkpoint holds the slot's snapshot and its loaded cores. -/
theorem checkpointWorker_eq {coreIds : List CoreId} {vector : List (CoreId × Int)}
    (hcheckpoint : checkpointWorker coreIds vector launched = .ok (some hunt))
    (hcores : launched.cores ⊆ coreIds) :
    hunt.workload = some launched.workload ∧ hunt.loaded = sorted launched.cores ∧
      launched.cores ≠ [] := by
  have hknown : launched.cores.filter (· ∈ coreIds) = launched.cores :=
    List.filter_eq_self.mpr fun core hcore => by simpa using hcores hcore
  obtain ⟨hne, -, rfl⟩ := checkpointWorker_opened hcheckpoint
  rw [hknown] at hne ⊢
  exact ⟨rfl, by simp [opened], hne⟩

/-- What an ordinary slot leaves behind is a context, not a hunt. -/
theorem checkpointWorker_unstarted {coreIds : List CoreId} {vector : List (CoreId × Int)}
    (hcheckpoint : checkpointWorker coreIds vector launched = .ok (some hunt)) :
    hunt.started = false := by
  obtain ⟨-, -, rfl⟩ := checkpointWorker_opened hcheckpoint
  simp only [HuntState.started, opened]
  split_ifs with hlead <;> simp_all

/-- What the probe of a checkpoint launches. -/
theorem runHuntSlot_eq {vector : List (CoreId × Int)}
    (hcheckpoint : checkpointWorker context.coreIds vector launched = .ok (some hunt))
    (hcores : launched.cores ⊆ context.coreIds) (duration : Int) :
    ∃ reporter, (sorted launched.cores).head? = some reporter ∧
      ∀ probing, probing =
        { context with
          hunting := true
          huntWorkload := some launched.workload
          validationStage := 0 } →
        (launched.workload.kind = some "rapid_transition" →
          runHuntSlot context hunt duration =
            startRapidTransitionWorker probing (sorted launched.cores) launched.workload) ∧
        (launched.workload.kind = some "parallel" →
          runHuntSlot context hunt duration =
            startWorkloadParallel probing (sorted launched.cores) duration none
              launched.workload) ∧
        (launched.workload.kind = some "solo" →
          runHuntSlot context hunt duration =
            startWorker probing reporter duration
              (launched.workload.profile = some "spectrum") (dutyCycleFor launched.workload)) := by
  obtain ⟨hworkload, hloaded, hne⟩ := checkpointWorker_eq hcheckpoint hcores
  have hsome : sorted launched.cores ≠ [] := by simpa using hne
  have hknown : (sorted launched.cores).filter (· ∈ context.coreIds) = sorted launched.cores := by
    refine List.filter_eq_self.mpr fun core hcore => ?_
    simpa using hcores ((sorted_perm launched.cores).mem_iff.mp hcore)
  obtain ⟨reporter, hreporter⟩ : ∃ reporter, (sorted launched.cores).head? = some reporter :=
    Option.isSome_iff_exists.mp (by simpa using hsome)
  refine ⟨reporter, hreporter, ?_⟩
  rintro probing rfl
  refine ⟨fun hkind => ?_, fun hkind => ?_, fun hkind => ?_⟩ <;>
    simp [runHuntSlot, startMultiCoreWorker, hworkload, hloaded, hknown, hsome, hreporter, hkind]

/-! ## Solo slots -/

/-- The profile a solo worker runs under. -/
def workerProfile (spectrum : Bool) (dutyCycle : Option DutyCycle) : String :=
  if dutyCycle.isSome then "transient" else if spectrum then "spectrum" else "sustained"

/-- What a solo launch builds from a recipe. -/
def soloStress (topology : Topology) (core : CoreId) (duration : Int) (active : WorkloadEntry)
    (recipe : LaunchContext.Recipe) (dutyCycle : Option DutyCycle) : StressConfig :=
  { mode := (StressMode.ofName? recipe.stressMode.toUpper).getD .sse
    fftPreset := (FFTPreset.ofName? recipe.fftPreset.toUpper).getD .small
    threads := threadsFor topology core recipe.threads
    memoryCoupled := active.memoryCoupled
    tests := testsOf active
    dutyCycle := dutyCycle
    testSeconds := testSeconds duration (testsOf active) }

/-- The snapshot a solo launch takes of a recipe. -/
def soloSnapshot (context : LaunchContext) (core : CoreId) (duration : Int) (profile : String)
    (recipe : LaunchContext.Recipe) : WorkloadEntry :=
  { context.workloadSnapshot
      { backend := some recipe.backend
        stressMode := some recipe.stressMode
        fftPreset := some recipe.fftPreset
        threads := some (threadsFor context.topology core recipe.threads)
        profile := some profile
        tests := testsOf (context.activeWorkload.getD {}) } with
    durationSeconds := some duration
    kind := some "solo" }

theorem startWorker_eq_some {core : CoreId} {duration : Int} {spectrum : Bool}
    {dutyCycle : Option DutyCycle} :
    startWorker context core duration spectrum dutyCycle = some launched ↔
      ∃ width recipe backend, context.topology.logicalCpus core = some width ∧
        context.activeStressConfig = some recipe ∧
        getBackendForName context.config recipe.backend = some backend ∧
        launched =
          { backend := backend
            stress := soloStress context.topology core duration
              (context.activeWorkload.getD {}) recipe dutyCycle
            workload :=
              soloSnapshot context core duration (workerProfile spectrum dutyCycle) recipe
            cores := [core] } := by
  simp only [startWorker, soloStress, soloSnapshot, workerProfile, Option.bind_eq_bind, Option.bind_eq_some_iff,
    Option.pure_def, Option.some.injEq]
  constructor
  · rintro ⟨width, hwidth, recipe, hrecipe, backend, hbackend, rfl⟩
    exact ⟨width, recipe, backend, hwidth, hrecipe, hbackend, rfl⟩
  · rintro ⟨width, recipe, backend, hwidth, hrecipe, hbackend, rfl⟩
    exact ⟨width, hwidth, recipe, hrecipe, backend, hbackend, rfl⟩

/-- A recipe is read off the active workload, or off the configuration. -/
theorem activeStressConfig_eq {recipe : LaunchContext.Recipe}
    (hrecipe : context.activeStressConfig = some recipe) :
    (context.activeWorkload.getD {}).backend.getD context.config.backend = recipe.backend ∧
      (context.activeWorkload.getD {}).stressMode.getD context.config.stressMode =
        recipe.stressMode ∧
      (context.activeWorkload.getD {}).fftPreset.getD context.config.fftPreset =
        recipe.fftPreset := by
  rw [LaunchContext.activeStressConfig] at hrecipe
  cases hactive : context.activeWorkload with
  | none =>
      simp only [hactive, Option.some.injEq] at hrecipe
      subst hrecipe
      exact ⟨rfl, rfl, rfl⟩
  | some workload =>
      simp only [hactive, Option.bind_eq_bind, Option.bind_eq_some_iff, Option.pure_def,
        Option.some.injEq] at hrecipe
      obtain ⟨backend, hbackend, stressMode, hmode, fftPreset, hpreset, rfl⟩ := hrecipe
      simp [hbackend, hmode, hpreset]

theorem testsOf_kept (active : WorkloadEntry) :
    (if (testsOf active).getD [] ≠ [] then testsOf active else active.tests).filter (· ≠ []) =
      testsOf active := by
  rw [testsOf]
  cases active.tests with
  | none => rfl
  | some tests => by_cases hempty : tests = [] <;> simp [hempty, Option.filter_some]

theorem workerProfile_ne_empty (spectrum : Bool) (dutyCycle : Option DutyCycle) :
    workerProfile spectrum dutyCycle ≠ "" := by
  rw [workerProfile]
  split_ifs <;> decide

/-- Only a duty cycle makes a transient profile. -/
theorem workerProfile_eq_transient {spectrum : Bool} {dutyCycle : Option DutyCycle} :
    workerProfile spectrum dutyCycle = "transient" ↔ dutyCycle.isSome = true := by
  rw [workerProfile]
  split_ifs with hduty <;> simp [hduty]

/-- The snapshot of a solo slot gives its configuration back. -/
theorem startWorker_replays {probing : LaunchContext} {core : CoreId} {duration : Int}
    {spectrum : Bool} {dutyCycle : Option DutyCycle}
    (hlaunch : startWorker context core duration spectrum dutyCycle = some launched)
    (hduty : dutyCycle = none ∨
      dutyCycle = some { randomPhases := (context.activeWorkload.getD {}).randomPhases })
    (hconfig : probing.config = context.config) (htopology : probing.topology = context.topology)
    (hactive : probing.activeWorkload = some launched.workload) (probeSeconds : Int)
    (probeSpectrum : Bool) :
    ∃ replayed,
      startWorker probing core probeSeconds probeSpectrum (dutyCycleFor launched.workload) =
        some replayed ∧ SameLoad launched replayed := by
  obtain ⟨width, recipe, backend, hwidth, hrecipe, hbackend, rfl⟩ := startWorker_eq_some.mp hlaunch
  obtain ⟨hname, hmode, hpreset⟩ := activeStressConfig_eq hrecipe
  have hprobeRecipe : probing.activeStressConfig =
      some
        { backend := recipe.backend
          stressMode := recipe.stressMode
          fftPreset := recipe.fftPreset
          threads := some (threadsFor context.topology core recipe.threads) } := by
    simp [LaunchContext.activeStressConfig, hactive, soloSnapshot,
      LaunchContext.workloadSnapshot, hname, hmode, hpreset]
  refine ⟨_, startWorker_eq_some.mpr ⟨width, _, backend, by rw [htopology]; exact hwidth,
    hprobeRecipe, by rw [hconfig]; exact hbackend, rfl⟩, rfl, ?_⟩
  have hprofile : ∀ fallback, orText (some (workerProfile spectrum dutyCycle)) fallback =
      workerProfile spectrum dutyCycle := by
    simp [orText, workerProfile_ne_empty]
  have hcycle : dutyCycleFor (soloSnapshot context core duration
      (workerProfile spectrum dutyCycle) recipe) = dutyCycle := by
    simp only [dutyCycleFor, soloSnapshot, LaunchContext.workloadSnapshot, hprofile, Option.some.injEq,
      workerProfile_eq_transient]
    rcases hduty with rfl | rfl <;> rfl
  have htests := testsOf_kept (context.activeWorkload.getD {})
  simp only [soloStress, hactive, Option.getD_some, htopology, threadsFor_threadsFor, hcycle]
  simp only [testsOf, soloSnapshot, LaunchContext.workloadSnapshot] at htests ⊢
  rw [htests]

/-! ## Slots of several cores -/

/-- Load and idle cycling replays on whichever cores. -/
theorem startRapidTransitionWorker_replays {cores : List CoreId} {workload : WorkloadEntry}
    (hlaunch : startRapidTransitionWorker context cores workload = some launched) :
    launched.workload = workload ∧ launched.cores = cores ∧
      ∀ probing : LaunchContext, probing.config = context.config → ∀ loaded, ∃ replayed,
        startRapidTransitionWorker probing loaded launched.workload = some replayed ∧
          SameLoad launched replayed := by
  simp only [startRapidTransitionWorker, Option.bind_eq_bind, Option.bind_eq_some_iff,
    Option.pure_def, Option.some.injEq] at hlaunch
  obtain ⟨mode, ⟨modeText, hmodeText, hmode⟩, preset, ⟨presetText, hpresetText, hpreset⟩,
    backend, ⟨name, hname, hbackend⟩, rfl⟩ := hlaunch
  refine ⟨rfl, rfl, fun probing hconfig loaded => ?_⟩
  let replayed : Launched :=
    { backend := backend
      stress := { mode := mode, fftPreset := preset, threads := transitionThreads workload }
      workload := workload
      cores := loaded }
  refine ⟨replayed, ?_, rfl, rfl⟩
  simp [startRapidTransitionWorker, replayed, hmodeText, hmode, hpresetText, hpreset, hname,
    hconfig, hbackend]

/-- A parallel slot with a workload of its own replays on the same first core. -/
theorem startWorkloadParallel_replays {cores : List CoreId} {duration : Int}
    {workload : WorkloadEntry}
    (hlaunch : startWorkloadParallel context cores duration none workload = some launched)
    (probeSeconds : Int) :
    launched.workload.kind = some "parallel" ∧ launched.cores = cores ∧
      ∀ probing : LaunchContext, probing.config = context.config →
        probing.topology = context.topology → ∃ replayed,
          startWorkloadParallel probing cores probeSeconds none launched.workload =
            some replayed ∧ SameLoad launched replayed := by
  simp only [startWorkloadParallel, Option.bind_eq_bind, Option.bind_eq_some_iff,
    Option.pure_def, Option.some.injEq] at hlaunch
  obtain ⟨first, hfirst, mode, ⟨modeText, hmodeText, hmode⟩, preset,
    ⟨presetText, hpresetText, hpreset⟩, backend, ⟨name, hname, hbackend⟩, rfl⟩ := hlaunch
  refine ⟨rfl, rfl, fun probing hconfig htopology => ?_⟩
  let replayed : Launched :=
    { backend := backend
      stress :=
        { mode := mode
          fftPreset := preset
          threads := threadsFor context.topology first workload.threads
          memoryCoupled := workload.memoryCoupled
          tests := testsOf workload
          testSeconds := testSeconds probeSeconds (testsOf workload)
          dutyCycle := dutyCycleFor workload }
      workload :=
        { workload with durationSeconds := some probeSeconds, kind := some "parallel" }
      cores := cores }
  refine ⟨replayed, ?_, rfl, rfl⟩
  simp [startWorkloadParallel, replayed, testsOf, dutyCycleFor, hfirst, hmodeText, hmode,
    hpresetText, hpreset, hname, hconfig, hbackend, htopology]

/-- No mode answers to the text of a member. -/
theorem ofName?_str_toUpper (mode : StressMode) : StressMode.ofName? mode.str.toUpper = none := by
  cases mode <;> decide +kernel

/-- A parallel slot without a workload of its own leaves a snapshot nothing launches. -/
theorem startPlainParallel_lost {probing : LaunchContext} {cores loaded : List CoreId}
    {duration : Int} {backend : Option String} {memoryMb : Option Int}
    (hlaunch : startPlainParallel context cores duration backend memoryMb = some launched)
    (probeSeconds : Int) :
    launched.workload.kind = some "parallel" ∧
      startWorkloadParallel probing loaded probeSeconds none launched.workload = none := by
  simp only [startPlainParallel, Option.bind_eq_bind, Option.bind_eq_some_iff, Option.pure_def,
    Option.some.injEq] at hlaunch
  obtain ⟨first, hfirst, rfl⟩ := hlaunch
  have hwritten : ∀ mode : StressMode, ∀ fallback, orText (some mode.str) fallback = mode.str := by
    intro mode fallback
    cases mode <;> rfl
  refine ⟨rfl, ?_⟩
  simp [startWorkloadParallel, LaunchContext.workloadSnapshot, hwritten, ofName?_str_toUpper]

/-! ## Every slot -/

section Slots

variable {vector : List (CoreId × Int)}

/-- The probe of a solo slot loads the slot's core with the slot's load. -/
theorem solo_slot_replays {solo : LaunchContext} {core : CoreId} {seconds : Int}
    {spectrum : Bool} {dutyCycle : Option DutyCycle} (hcore : core ∈ context.coreIds)
    (hlaunch : startWorker solo core seconds spectrum dutyCycle = some launched)
    (hconfig : solo.config = context.config) (htopology : solo.topology = context.topology)
    (hduty : dutyCycle = none ∨
      dutyCycle = some { randomPhases := (solo.activeWorkload.getD {}).randomPhases })
    (hcheckpoint : checkpointWorker context.coreIds vector launched = .ok (some hunt))
    (duration : Int) :
    ∃ replayed, runHuntSlot context hunt duration = some replayed ∧
      SameLoad launched replayed := by
  obtain ⟨width, recipe, backend, -, -, -, hlaunched⟩ := startWorker_eq_some.mp hlaunch
  have hloaded : launched.cores = [core] := by rw [hlaunched]
  have hkind : launched.workload.kind = some "solo" := by
    rw [hlaunched]
    rfl
  obtain ⟨reporter, hreporter, hrun⟩ :=
    runHuntSlot_eq hcheckpoint (by simpa [hloaded] using hcore) duration
  obtain rfl : core = reporter := by simpa [hloaded, sorted] using hreporter
  rw [(hrun _ rfl).2.2 hkind]
  refine startWorker_replays hlaunch hduty ?_ ?_ ?_ duration _
  · exact hconfig.symm
  · exact htopology.symm
  · simp [LaunchContext.activeWorkload]

/-- No probe is launched for a parallel slot without a workload of its own. -/
theorem plain_slot_lost {plain : LaunchContext} {cores : List CoreId} {seconds : Int}
    {backend : Option String} {memoryMb : Option Int}
    (hcores : cores ⊆ context.coreIds)
    (hlaunch : startMultiCoreWorker plain cores seconds backend memoryMb none = some launched)
    (hcheckpoint : checkpointWorker context.coreIds vector launched = .ok (some hunt))
    (duration : Int) : runHuntSlot context hunt duration = none := by
  have hloaded : launched.cores = cores := by
    simp only [startMultiCoreWorker, startPlainParallel, Option.bind_eq_bind,
      Option.bind_eq_some_iff, Option.pure_def, Option.some.injEq] at hlaunch
    obtain ⟨first, -, rfl⟩ := hlaunch
    rfl
  obtain ⟨reporter, -, hrun⟩ :=
    runHuntSlot_eq hcheckpoint (by simpa [hloaded] using hcores) duration
  obtain ⟨hkind, hlost⟩ := startPlainParallel_lost hlaunch duration
  rw [(hrun _ rfl).2.1 hkind]
  exact hlost

theorem dutyCycleFor_cases (workload : WorkloadEntry) :
    dutyCycleFor workload = none ∨
      dutyCycleFor workload = some { randomPhases := workload.randomPhases } := by
  rw [dutyCycleFor]
  split_ifs
  · exact .inr rfl
  · exact .inl rfl

/-- **A hunt replays the load that failed**, unless a slot without a workload of its own
put it on several cores. -/
theorem hunt_replays_load {slot : OrdinarySlot} (hcores : slot.cores ⊆ context.coreIds)
    (hlaunch : launchSlot context slot = some launched)
    (hcheckpoint : checkpointWorker context.coreIds vector launched = .ok (some hunt))
    (duration : Int) :
    (∃ replayed, runHuntSlot context hunt duration = some replayed ∧
      SameLoad launched replayed) ↔ slot.isPlainParallel = false := by
  cases slot with
  | battery state weights rotation seconds =>
      simp only [launchSlot, Option.bind_eq_bind, Option.bind_eq_some_iff] at hlaunch
      obtain ⟨entry, -, hstart⟩ := hlaunch
      refine iff_of_true (solo_slot_replays (hcores (by simp [OrdinarySlot.cores])) hstart rfl rfl
        ?_ hcheckpoint duration) rfl
      simpa [LaunchContext.activeWorkload] using dutyCycleFor_cases entry
  | stage1 core =>
      exact iff_of_true (solo_slot_replays (hcores (by simp [OrdinarySlot.cores])) hlaunch rfl rfl
        (.inl rfl) hcheckpoint duration) rfl
  | stage5 core =>
      exact iff_of_true (solo_slot_replays (hcores (by simp [OrdinarySlot.cores])) hlaunch rfl rfl
        (.inl rfl) hcheckpoint duration) rfl
  | enduranceSolo index seconds core =>
      simp only [launchSlot, Option.bind_eq_bind, Option.bind_eq_some_iff] at hlaunch
      obtain ⟨workload, hworkload, hstart⟩ := hlaunch
      refine iff_of_true (solo_slot_replays (hcores (by simp [OrdinarySlot.cores])) hstart rfl rfl
        ?_ hcheckpoint duration) rfl
      simpa [LaunchContext.activeWorkload, hworkload] using dutyCycleFor_cases workload
  | stage2 profile =>
      -- A plain slot of several cores has no workload, so no probe is launched for it.
      have hlost := plain_slot_lost hcores hlaunch hcheckpoint duration
      simp [hlost, OrdinarySlot.isPlainParallel]
  | stage3 half =>
      have hlost := plain_slot_lost hcores hlaunch hcheckpoint duration
      simp [hlost, OrdinarySlot.isPlainParallel]
  | stage6 profile memoryMb =>
      have hlost := plain_slot_lost hcores hlaunch hcheckpoint duration
      simp [hlost, OrdinarySlot.isPlainParallel]
  | stage4 profile =>
      obtain ⟨hworkload, hloaded, hreplay⟩ := startRapidTransitionWorker_replays hlaunch
      obtain ⟨reporter, -, hrun⟩ := runHuntSlot_eq hcheckpoint (by rwa [hloaded]) duration
      -- Transitions are launched again by the kind of their workload.
      rw [(hrun _ rfl).1 (by rw [hworkload])]
      exact iff_of_true (hreplay _ rfl _) rfl
  | enduranceAllCore index seconds profile =>
      simp only [launchSlot, Option.bind_eq_bind, Option.bind_eq_some_iff,
        Option.ite_none_left_eq_some] at hlaunch
      obtain ⟨workload, -, -, hstart⟩ := hlaunch
      obtain ⟨hkind, hloaded, hreplay⟩ := startWorkloadParallel_replays hstart duration
      obtain ⟨reporter, -, hrun⟩ := runHuntSlot_eq hcheckpoint (by rwa [hloaded]) duration
      rw [(hrun _ rfl).2.1 hkind, hloaded, sorted_sorted]
      exact iff_of_true (hreplay _ rfl rfl) rfl

end Slots

/-- A machine of two cores with two logical CPUs each, under the default configuration. -/
def twoCores : LaunchContext :=
  { config := {}
    topology := { logicalCpus := fun core => if core < 2 then some 2 else none }
    coreIds := [0, 1] }

/-- The journal with both cores at -10. -/
def twoCoreVector : List (CoreId × Int) := [(0, -10), (1, -10)]

/-- A slot that launches and leaves a crash context. -/
theorem exists_checkpoint {slot : OrdinarySlot} {vector : List (CoreId × Int)}
    (hrun : ((launchSlot context slot).bind fun launched =>
      (checkpointWorker context.coreIds vector launched).toOption.bind id).isSome = true) :
    ∃ launched hunt, launchSlot context slot = some launched ∧
      checkpointWorker context.coreIds vector launched = .ok (some hunt) := by
  obtain ⟨hunt, hhunt⟩ := Option.isSome_iff_exists.mp hrun
  obtain ⟨launched, hlaunch, hpersisted⟩ := Option.bind_eq_some_iff.mp hhunt
  cases hcheckpoint : checkpointWorker context.coreIds vector launched with
  | error message => simp [hcheckpoint, Except.toOption] at hpersisted
  | ok persisted =>
      refine ⟨launched, hunt, hlaunch, ?_⟩
      simpa [hcheckpoint, Except.toOption] using hpersisted

/-- The load of the default stage 1 slot on core 0 comes back. -/
theorem hunt_replays_load_stage1 :
    ∃ launched hunt, launchSlot twoCores (.stage1 0) = some launched ∧
      checkpointWorker twoCores.coreIds twoCoreVector launched = .ok (some hunt) ∧
      ∃ replayed, runHuntSlot twoCores hunt 1800 = some replayed ∧ SameLoad launched replayed := by
  obtain ⟨launched, hunt, hlaunch, hcheckpoint⟩ : ∃ launched hunt,
      launchSlot twoCores (.stage1 0) = some launched ∧
        checkpointWorker twoCores.coreIds twoCoreVector launched = .ok (some hunt) :=
    exists_checkpoint (by decide +kernel)
  have hcores : (OrdinarySlot.stage1 0).cores ⊆ twoCores.coreIds := by decide
  exact ⟨launched, hunt, hlaunch, hcheckpoint,
    (hunt_replays_load hcores hlaunch hcheckpoint 1800).mpr rfl⟩

/-- The all-core slot of stage 2 leaves a context whose hunt launches nothing. -/
theorem stage2_load_lost :
    ({} : TunerConfig).Valid ∧ ∃ launched hunt,
      launchSlot twoCores (.stage2 [0, 1]) = some launched ∧
        checkpointWorker twoCores.coreIds twoCoreVector launched = .ok (some hunt) ∧
        runHuntSlot twoCores hunt 1800 = none := by
  obtain ⟨launched, hunt, hlaunch, hcheckpoint⟩ : ∃ launched hunt,
      launchSlot twoCores (.stage2 [0, 1]) = some launched ∧
        checkpointWorker twoCores.coreIds twoCoreVector launched = .ok (some hunt) :=
    exists_checkpoint (by decide +kernel)
  have hcores : sorted [0, 1] ⊆ twoCores.coreIds := by decide
  exact ⟨by decide +kernel, launched, hunt, hlaunch, hcheckpoint,
    plain_slot_lost hcores hlaunch hcheckpoint 1800⟩

end Tuner
end CoreCycler
