import CoreCycler.Engine.DutyDriver
import CoreCycler.Library.Rounding

/-!
# The stall clock of a duty-cycled lane

The supervisor polls a lane: it reads the clock, and later in the poll the CPU times and the
driver's idle time.  A lane without a sign of life is charged the time since the last check, less
the idle time that the driver reports for it.  The driver runs on between all of these.

A lane is called stalled for time in which its payload could have run, and for no other time
(`stalled_iff_runnable`).
-/

namespace CoreCycler
namespace Engine
namespace Duty

open Library Library.Rounding

/-- Idle and total time of a CPU. -/
abbrev CpuTimes := Int × Int

def busyFraction (prev now : Option CpuTimes) : Option ℚ :=
  match prev, now with
  | some prev, some now =>
      if now.2 - prev.2 ≤ 0 then none
      else
        let idle := binary64.round (((now.1 - prev.1 : Int) : ℚ) / ((now.2 - prev.2 : Int) : ℚ))
        some (binary64.round (1 - idle))
  | _, _ => none

/-- What a lane run keeps for the stall check. -/
structure Watch where
  prevTimes : Nat → Option CpuTimes := fun _ => none
  lastActive : ℚ := 0
  lastStallCheck : Option ℚ := none
  observedDutyIdleSeconds : ℚ := 0
  inactiveRunnableSeconds : ℚ := 0

/-- What the loop over the CPUs has found. -/
structure Samples where
  prevTimes : Nat → Option CpuTimes
  active : Bool := false
  anySample : Bool := false

def Samples.take (samples : Samples) (snapshot : Nat → Option CpuTimes) (cpu : Nat) : Samples :=
  let current := snapshot cpu
  let busy := busyFraction (samples.prevTimes cpu) current
  { prevTimes :=
      if current.isSome then Function.update samples.prevTimes cpu current else samples.prevTimes
    active := samples.active || busy.any fun fraction =>
      decide (binary64.round (1 / 20) < fraction)
    anySample := samples.anySample || busy.isSome }

def Watch.samples (watch : Watch) (cpus : List Nat) (snapshot : Nat → Option CpuTimes) : Samples :=
  cpus.foldl (fun samples cpu => samples.take snapshot cpu) { prevTimes := watch.prevTimes }

/-- A CPU of the lane was busy, or none could be told. -/
def Samples.alive (samples : Samples) : Bool := samples.active || !samples.anySample

/-- `_is_stalled`. -/
def isStalled (stallTimeout : ℚ) (cpus : List Nat) (watch : Watch) (now : ℚ)
    (snapshot : Nat → Option CpuTimes) (dutyIdle : ℚ) : Bool × Watch :=
  let samples := watch.samples cpus snapshot
  let idleDelta := max 0 (dutyIdle - watch.observedDutyIdleSeconds)
  match samples.alive, watch.lastStallCheck with
  | false, some previousCheck =>
      -- Idle time of the duty cycle is no sign of a stall.
      let inactive := watch.inactiveRunnableSeconds + max 0 (now - previousCheck - idleDelta)
      (decide (stallTimeout < inactive),
        { watch with
          prevTimes := samples.prevTimes
          lastStallCheck := some now
          observedDutyIdleSeconds := dutyIdle
          inactiveRunnableSeconds := inactive })
  | _, _ =>
      (false,
        { prevTimes := samples.prevTimes
          lastActive := now
          lastStallCheck := some now
          observedDutyIdleSeconds := dutyIdle
          inactiveRunnableSeconds := 0 })

/-- A driver, and the poll of its lane. -/
structure Bench where
  driver : Driver
  watch : Watch := {}
  /-- The payload has been launched. -/
  watched : Bool := false
  /-- What the poll has read from the clock. -/
  now : Option ℚ := none
  /-- Kept for the statements: the idle time at the last sign of life, the clock at the last check,
  and how late the checks since the last sign of life read the idle time. -/
  activeIdle : ℚ := 0
  checkedAt : ℚ := 0
  lag : ℚ := 0

inductive BenchEvent where
  | driver (event : Event)
  /-- `time.monotonic()` of the launch or of a poll. -/
  | look
  /-- The end of the launch. -/
  | launched
  | check (snapshot : Nat → Option CpuTimes)

def Bench.step (stallTimeout : ℚ) (cpus : List Nat) (bench : Bench) : BenchEvent → Option Bench
  | .driver event => (bench.driver.step event).map fun driver => { bench with driver := driver }
  | .look => if bench.now = none then some { bench with now := some bench.driver.clock } else none
  | .launched =>
      match bench.watched, bench.now with
      | false, some started =>
          some { bench with
            watch :=
              { lastActive := started
                lastStallCheck := some started
                observedDutyIdleSeconds := bench.driver.intentionalIdleSeconds }
            watched := true
            now := none
            activeIdle := bench.driver.intentionalIdleSeconds
            checkedAt := bench.driver.clock
            lag := 0 }
      | _, _ => none
  | .check snapshot =>
      match bench.watched, bench.now with
      | true, some now =>
          let alive := (bench.watch.samples cpus snapshot).alive
          some { bench with
            watch := (isStalled stallTimeout cpus bench.watch now snapshot
              bench.driver.intentionalIdleSeconds).2
            now := none
            activeIdle :=
              if alive then bench.driver.intentionalIdleSeconds else bench.activeIdle
            checkedAt := bench.driver.clock
            lag := if alive then 0 else bench.lag + (bench.driver.clock - now) }
      | _, _ => none

def benchSystem (stallTimeout : ℚ) (cpus : List Nat) : StepSystem Bench BenchEvent where
  Start bench := ∃ dutyCycle clock, bench = { driver := { dutyCycle := dutyCycle, clock := clock } }
  step := Bench.step stallTimeout cpus

variable {stallTimeout : ℚ} {cpus : List Nat} {bench next : Bench} {event : BenchEvent}

/-- The time since the last sign of life in which the payload could have run. -/
def Bench.runnable (bench : Bench) (now idle : ℚ) : ℚ :=
  (now - bench.watch.lastActive) - (idle - bench.activeIdle)

/-- What holds of a watched lane whose driver has met no error. -/
structure Charged (bench : Bench) (checked : ℚ) : Prop where
  last : bench.watch.lastStallCheck = some checked
  clock : checked ≤ bench.checkedAt
  /-- The idle time since the last check. -/
  observed : bench.watch.observedDutyIdleSeconds ≤ bench.driver.intentionalIdleSeconds
  credited : bench.driver.intentionalIdleSeconds - bench.watch.observedDutyIdleSeconds ≤
    bench.driver.clock - bench.checkedAt
  /-- What has been charged since the last sign of life. -/
  atLeast : bench.runnable checked bench.watch.observedDutyIdleSeconds ≤
    bench.watch.inactiveRunnableSeconds
  atMost : bench.watch.inactiveRunnableSeconds ≤
    bench.runnable checked bench.watch.observedDutyIdleSeconds + bench.lag

structure Watched (bench : Bench) : Prop where
  driver : StepSystem.Reachable system bench.driver
  looked : ∀ now ∈ bench.now, now ≤ bench.driver.clock
  charged : bench.watched = true → bench.driver.controlError = false →
    ∃ checked, Charged bench checked

theorem Charged.driver {checked : ℚ} (hcharged : Charged bench checked) {moved : Driver}
    {event : Event} (hreach : StepSystem.Reachable system bench.driver)
    (herror : bench.driver.controlError = false)
    (hstep : system.step bench.driver event = some moved) :
    Charged { bench with driver := moved } checked := by
  obtain ⟨hgrows, hslow⟩ := step_idle (books_of_reachable hreach) herror hstep
  have hobserved := hcharged.observed
  have hcredited := hcharged.credited
  exact ⟨hcharged.last, hcharged.clock, by simp only; linarith,
    by simp only; linarith, hcharged.atLeast, hcharged.atMost⟩

/-- The verdict of a check on a lane without a sign of life, and what it charges. -/
theorem isStalled_inactive {watch : Watch} {now previous idle : ℚ}
    {snapshot : Nat → Option CpuTimes} (hdead : (watch.samples cpus snapshot).alive = false)
    (hprevious : watch.lastStallCheck = some previous)
    (hobserved : watch.observedDutyIdleSeconds ≤ idle) :
    isStalled stallTimeout cpus watch now snapshot idle =
      (decide (stallTimeout < watch.inactiveRunnableSeconds +
          max 0 (now - previous - (idle - watch.observedDutyIdleSeconds))),
        { watch with
          prevTimes := (watch.samples cpus snapshot).prevTimes
          lastStallCheck := some now
          observedDutyIdleSeconds := idle
          inactiveRunnableSeconds := watch.inactiveRunnableSeconds +
            max 0 (now - previous - (idle - watch.observedDutyIdleSeconds)) }) := by
  have hdelta : max 0 (idle - watch.observedDutyIdleSeconds) =
      idle - watch.observedDutyIdleSeconds := max_eq_right (by linarith)
  unfold isStalled
  simp only [hdead, hprevious, hdelta]

theorem isStalled_alive {watch : Watch} {now idle : ℚ} {snapshot : Nat → Option CpuTimes}
    (halive : (watch.samples cpus snapshot).alive = true) :
    isStalled stallTimeout cpus watch now snapshot idle =
      (false,
        { prevTimes := (watch.samples cpus snapshot).prevTimes
          lastActive := now
          lastStallCheck := some now
          observedDutyIdleSeconds := idle
          inactiveRunnableSeconds := 0 }) := by
  unfold isStalled
  simp only [halive]

/-- The charge of a check is the time that could have been run in since the check before it, and
at most as much more as the check was late. -/
theorem Charged.charge {checked now : ℚ} (hcharged : Charged bench checked)
    (hclock : now ≤ bench.driver.clock) :
    bench.runnable now bench.driver.intentionalIdleSeconds ≤
        bench.watch.inactiveRunnableSeconds + max 0 (now - checked -
          (bench.driver.intentionalIdleSeconds - bench.watch.observedDutyIdleSeconds)) ∧
      bench.watch.inactiveRunnableSeconds + max 0 (now - checked -
          (bench.driver.intentionalIdleSeconds - bench.watch.observedDutyIdleSeconds)) ≤
        bench.runnable now bench.driver.intentionalIdleSeconds +
          (bench.lag + (bench.driver.clock - now)) := by
  have hatLeast := hcharged.atLeast
  have hatMost := hcharged.atMost
  have hcredited := hcharged.credited
  have hchecked := hcharged.clock
  unfold Bench.runnable at *
  rcases max_cases 0 (now - checked - (bench.driver.intentionalIdleSeconds -
    bench.watch.observedDutyIdleSeconds)) with ⟨hmax, hle⟩ | ⟨hmax, hlt⟩
  · rw [hmax]
    exact ⟨by linarith, by linarith⟩
  · rw [hmax]
    exact ⟨by linarith, by linarith⟩

theorem Watched.step (hwatched : Watched bench)
    (hstep : (benchSystem stallTimeout cpus).step bench event = some next) : Watched next := by
  have hdriver := hwatched.driver
  cases event with
  | driver event =>
      obtain ⟨moved, hmoved, rfl⟩ := Option.map_eq_some_iff.mp hstep
      refine ⟨.step hdriver trivial hmoved, fun now hnow => ?_, fun hlaunched hclean => ?_⟩
      · exact (hwatched.looked now hnow).trans (step_clock hmoved)
      · have herror := controlError_before event hmoved hclean
        obtain ⟨checked, hcharged⟩ := hwatched.charged hlaunched herror
        exact ⟨checked, hcharged.driver hdriver herror hmoved⟩
  | look =>
      simp only [benchSystem, Bench.step] at hstep
      split at hstep
      · cases hstep
        refine ⟨hdriver, fun now hnow => ?_, fun hlaunched hclean => ?_⟩
        · cases hnow
          exact le_refl _
        · obtain ⟨checked, hcharged⟩ := hwatched.charged hlaunched hclean
          have hobserved := hcharged.observed
          have hcredited := hcharged.credited
          exact ⟨checked, hcharged.last, hcharged.clock, hobserved, hcredited, hcharged.atLeast,
            hcharged.atMost⟩
      · cases hstep
  | launched =>
      simp only [benchSystem, Bench.step] at hstep
      split at hstep
      · rename_i started hfresh hstarted
        cases hstep
        have hbefore := hwatched.looked started hstarted
        refine ⟨hdriver, fun now hnow => (by cases hnow), fun _ _ => ⟨started, rfl,
          hbefore, le_refl _, ?_, ?_, ?_⟩⟩
        · simp
        · simp [Bench.runnable]
        · simp [Bench.runnable]
      · cases hstep
  | check snapshot =>
      simp only [benchSystem, Bench.step] at hstep
      split at hstep
      · rename_i now hlaunched hnow
        cases hstep
        have hclock := hwatched.looked now hnow
        refine ⟨hdriver, fun later hlater => (by cases hlater), fun _ hclean => ⟨now, ?_⟩⟩
        obtain ⟨checked, hcharged⟩ := hwatched.charged hlaunched hclean
        cases halive : (bench.watch.samples cpus snapshot).alive with
        | true =>
            -- A sample that is alive sets the clock of the stall back.
            rw [isStalled_alive halive]
            refine ⟨rfl, hclock, le_refl _, ?_, ?_, ?_⟩
            · simp
            · simp [Bench.runnable]
            · simp [Bench.runnable]
        | false =>
            -- An idle sample is charged for the time since the last, less what the duty cycle
            -- accounts for.
            rw [isStalled_inactive halive hcharged.last hcharged.observed]
            obtain ⟨hatLeast, hatMost⟩ :=
              hcharged.charge hclock
            exact ⟨rfl, hclock, le_refl _, by simp, hatLeast, hatMost⟩
      · cases hstep

theorem watched_of_reachable
    (hreach : StepSystem.Reachable (benchSystem stallTimeout cpus) bench) : Watched bench := by
  have hstart : ∀ bench, (benchSystem stallTimeout cpus).Start bench → Watched bench := by
    rintro bench ⟨dutyCycle, clock, rfl⟩
    exact ⟨.start ⟨dutyCycle, clock, rfl⟩, fun now hnow => (by cases hnow),
      fun hlaunched => (by cases hlaunched)⟩
  have hkeep : ∀ bench event next, Watched bench → StepSystem.anyStep bench event →
      (benchSystem stallTimeout cpus).step bench event = some next → Watched next :=
    fun _ _ _ hwatched _ hstep => hwatched.step hstep
  exact hreach.invariant hstart hkeep

/-- **A lane is called stalled for time it could have run in.**  As long as no signal of its driver
fails with an error, a check calls a lane stalled only if none of its CPUs was busy, and only if the
time since its last sign of life, less the idle time the driver reports for it, and with what the
checks since then were late, is more than the timeout; and it does where that time alone is. -/
theorem stalled_iff_runnable {now : ℚ} (snapshot : Nat → Option CpuTimes)
    (hreach : StepSystem.Reachable (benchSystem stallTimeout cpus) bench)
    (hwatched : bench.watched = true) (hnow : bench.now = some now)
    (herror : bench.driver.controlError = false) :
    ((isStalled stallTimeout cpus bench.watch now snapshot
        bench.driver.intentionalIdleSeconds).1 = true →
      (bench.watch.samples cpus snapshot).alive = false ∧
      stallTimeout < bench.runnable now bench.driver.intentionalIdleSeconds +
        (bench.lag + (bench.driver.clock - now))) ∧
    ((bench.watch.samples cpus snapshot).alive = false →
      stallTimeout < bench.runnable now bench.driver.intentionalIdleSeconds →
      (isStalled stallTimeout cpus bench.watch now snapshot
        bench.driver.intentionalIdleSeconds).1 = true) := by
  have hinv := watched_of_reachable hreach
  obtain ⟨checked, hcharged⟩ := hinv.charged hwatched herror
  obtain ⟨hatLeast, hatMost⟩ := hcharged.charge (hinv.looked now hnow)
  cases halive : (bench.watch.samples cpus snapshot).alive with
  | true =>
      rw [isStalled_alive halive]
      exact ⟨fun h => (by cases h), fun h => (by cases h)⟩
  | false =>
      rw [isStalled_inactive halive hcharged.last hcharged.observed]
      refine ⟨fun hstalled => ⟨rfl, ?_⟩, fun _ hover => ?_⟩
      · exact lt_of_lt_of_le (of_decide_eq_true hstalled) hatMost
      · exact decide_eq_true (lt_of_lt_of_le hover hatLeast)

/-- A lane whose CPUs stand still for forty seconds, half of them idle. -/
theorem stalled_iff_runnable_forty : ∃ bench,
    StepSystem.Reachable (benchSystem 15 [0]) bench ∧
    (isStalled 15 [0] bench.watch 40 (fun _ => some (40, 40))
      bench.driver.intentionalIdleSeconds).1 = true := by
  have hstart : (benchSystem 15 [0]).Start { driver := { dutyCycle := {}, clock := 0 } } :=
    ⟨{}, 0, rfl⟩
  have hrun := StepSystem.exists_reachable
    (fun bench : Bench => (bench.watched, bench.now, bench.driver.controlError,
      (bench.watch.samples [0] fun _ => some (40, 40)).alive,
      decide (15 < bench.runnable 40 bench.driver.intentionalIdleSeconds)))
    (true, some 40, false, false, true)
    [.driver (.thread {}), .look, .launched, .look, .check fun _ => some (0, 0),
      .driver (.thread {}), .driver (.thread {}), .driver (.thread {}),
      .driver (.time 20), .driver (.thread {}), .driver (.thread {}), .driver (.thread {}),
      .driver (.time 20), .look]
    hstart (by decide +kernel)
  obtain ⟨bench, hreach, hview⟩ := hrun
  simp only [Prod.mk.injEq, decide_eq_true_eq] at hview
  obtain ⟨hwatched, hnow, herror, hdead, hover⟩ := hview
  exact ⟨bench, hreach,
    (stalled_iff_runnable _ hreach hwatched hnow herror).2 hdead hover⟩

end Duty
end Engine
end CoreCycler
