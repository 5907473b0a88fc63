import CoreCycler.Library.StepSystem

/-!
# The duty-cycle driver

The driver stops and continues the process group of a payload from a thread of its own, while
any number of callers may stop the driver.  A step is one statement on what the threads share:
the stop event, a signal to the group, the books of the idle time, or the end of a sleep.  Time
passes between any two steps, and the payload may exit at any time.

A stop that returns leaves the payload runnable, for good (`returned_runnable`), and every stop
comes to an end (`stop_ends`).
-/

namespace CoreCycler
namespace Engine
namespace Duty

open Library

/-- Load and idle cycling of a running payload. -/
structure DutyCycle where
  burstUs : Int := 5000
  idleUs : Int := 5000
  /-- A fresh phase length and duty every phase. -/
  randomPhases : Bool := false

/-- `_MICRO_PERIOD_SECONDS`. -/
def microPeriodSeconds : ℚ := 1 / 100

/-- Where the driver's thread stands. -/
inductive Spot where
  | began
  | looping
  /-- Random phases: the draw of a phase, and the loop over its periods. -/
  | drawing
  | phase
  | stopping
  | opening
  | idling
  | continuing
  | closing
  | checking
  | bursting
  | counting
  /-- The thread's last `_continue_payload`. -/
  | lastContinuing
  | lastClosing
  | ended
deriving DecidableEq, Repr

/-- Where a call of `stop` stands. -/
inductive Stop where
  | away
  | called
  | joining
  | continuing
  | closing
  | reporting
  | returned
  | raised
deriving DecidableEq, Repr

/-- The driver's thread, the calls of `stop` beside it, and the payload. -/
structure Driver where
  dutyCycle : DutyCycle
  clock : ℚ
  stopEvent : Bool := false
  stoppedEarly : Bool := false
  controlError : Bool := false
  cyclesCompleted : Nat := 0
  idleStartedAt : Option ℚ := none
  completedIdleSeconds : ℚ := 0
  spot : Spot := .began
  /-- The thread's local variables. -/
  deadline : ℚ := 0
  phaseDeadline : ℚ := 0
  dutyFraction : ℚ := 0
  idleSeconds : ℚ := 0
  burstSeconds : ℚ := 0
  stops : Nat → Stop := fun _ => .away
  /-- The payload's group is stopped; it is gone. -/
  held : Bool := false
  gone : Bool := false
  /-- Kept for the statements: the time the group was stopped, and the time in which that was
  not what the books say. -/
  heldSeconds : ℚ := 0
  strayedSeconds : ℚ := 0

/-- How `killpg` comes out. -/
inductive Kill where
  | delivered
  /-- `ProcessLookupError`. -/
  | lookup
  /-- Another `OSError`. -/
  | failed
deriving DecidableEq, Repr

/-- What the environment decides about a statement. -/
structure Luck where
  /-- The signal fails with an error of its own. -/
  fails : Bool := false
  phaseSeconds : ℚ := 0
  dutyFraction : ℚ := 0

inductive Event where
  | time (seconds : ℚ)
  | payloadExits
  /-- The driver's thread takes a step. -/
  | thread (luck : Luck)
  /-- A call of `stop` takes a step. -/
  | stop (who : Nat) (luck : Luck)

namespace Driver

def kill (driver : Driver) (luck : Luck) : Kill :=
  if luck.fails then .failed else if driver.gone then .lookup else .delivered

/-- `_close_idle_interval`. -/
def closeIdleInterval (driver : Driver) : Driver :=
  match driver.idleStartedAt with
  | some started =>
      { driver with
        completedIdleSeconds := driver.completedIdleSeconds + (driver.clock - started)
        idleStartedAt := none }
  | none => driver

/-- `intentional_idle_seconds`. -/
def intentionalIdleSeconds (driver : Driver) : ℚ :=
  match driver.idleStartedAt with
  | some started => driver.completedIdleSeconds + driver.clock - started
  | none => driver.completedIdleSeconds

/-- The `SIGCONT` of `_continue_payload`, and whether the idle interval is closed after it. -/
def sigcont (driver : Driver) (luck : Luck) : Driver × Bool :=
  match driver.kill luck with
  | .delivered => ({ driver with held := false }, true)
  | .lookup => ({ driver with stoppedEarly := true }, true)
  | .failed => ({ driver with stoppedEarly := true, controlError := true }, false)

/-- The `SIGSTOP` of `_stop_payload`; a signal that is not delivered ends the loop. -/
def sigstop (driver : Driver) (luck : Luck) : Driver :=
  match driver.kill luck with
  | .delivered => { driver with held := true, spot := .opening }
  | .lookup => { driver with stoppedEarly := true, spot := .lastContinuing }
  | .failed =>
      { driver with stoppedEarly := true, controlError := true, spot := .lastContinuing }

/-- A sleep until the deadline is over. -/
def awake (driver : Driver) : Bool :=
  driver.stopEvent || decide (driver.deadline ≤ driver.clock)

/-- The next statement of `_run_fixed` or `_run_random_phases`, within `_run`. -/
def thread (driver : Driver) (luck : Luck) : Option Driver :=
  match driver.spot with
  | .began => some { driver with deadline := driver.clock, spot := .looping }
  | .looping =>
      -- The core is continued once more, whatever the thread last sent.
      if driver.stopEvent then some { driver with spot := .lastContinuing }
      else if driver.dutyCycle.randomPhases then some { driver with spot := .drawing }
      else some { driver with
        idleSeconds := driver.dutyCycle.idleUs / 1000000
        burstSeconds := driver.dutyCycle.burstUs / 1000000
        spot := .stopping }
  | .drawing => some { driver with
      dutyFraction := luck.dutyFraction
      phaseDeadline := driver.deadline + luck.phaseSeconds
      spot := .phase }
  | .phase =>
      -- A phase is cut into periods, the last of them shorter.
      if driver.deadline < driver.phaseDeadline ∧ driver.stopEvent = false then
        let period := min microPeriodSeconds (driver.phaseDeadline - driver.deadline)
        some { driver with
          idleSeconds := period * (1 - driver.dutyFraction)
          burstSeconds := period * driver.dutyFraction
          spot := .stopping }
      else some { driver with spot := .looping }
  | .stopping => some (driver.sigstop luck)
  | .opening => some { driver with
      idleStartedAt := some driver.clock
      deadline := driver.deadline + driver.idleSeconds
      spot := .idling }
  | .idling => if driver.awake then some { driver with spot := .continuing } else none
  | .continuing =>
      let (next, closes) := driver.sigcont luck
      some { next with spot := if closes then .closing else .checking }
  | .closing => some { driver.closeIdleInterval with spot := .checking }
  | .checking =>
      if driver.stopEvent then some { driver with spot := .lastContinuing }
      else some { driver with deadline := driver.deadline + driver.burstSeconds, spot := .bursting }
  | .bursting => if driver.awake then some { driver with spot := .counting } else none
  | .counting => some { driver with
      cyclesCompleted := driver.cyclesCompleted + 1
      spot := if driver.dutyCycle.randomPhases then .phase else .looping }
  | .lastContinuing =>
      let (next, closes) := driver.sigcont luck
      some { next with spot := if closes then .lastClosing else .ended }
  | .lastClosing => some { driver.closeIdleInterval with spot := .ended }
  | .ended => none

/-- The next statement of a call of `stop`, which joins the thread first. -/
def stop (driver : Driver) (who : Nat) (luck : Luck) : Option Driver :=
  let at' := fun (next : Driver) (spot : Stop) =>
    some { next with stops := Function.update driver.stops who spot }
  match driver.stops who with
  | .away => at' driver .called
  | .called => at' { driver with stopEvent := true } .joining
  | .joining => if driver.spot = .ended then at' driver .continuing else none
  | .continuing =>
      let (next, closes) := driver.sigcont luck
      at' next (if closes then .closing else .reporting)
  | .closing => at' driver.closeIdleInterval .reporting
  | .reporting => at' driver (if driver.controlError then .raised else .returned)
  | .returned | .raised => none

/-- The clock goes on. -/
def elapse (driver : Driver) (seconds : ℚ) : Driver :=
  { driver with
    clock := driver.clock + seconds
    heldSeconds := driver.heldSeconds + if driver.held then seconds else 0
    strayedSeconds := driver.strayedSeconds +
      if driver.held = driver.idleStartedAt.isSome then 0 else seconds }

def step (driver : Driver) : Event → Option Driver
  | .time seconds => if 0 ≤ seconds then some (driver.elapse seconds) else none
  | .payloadExits => some { driver with gone := true, held := false }
  | .thread luck => driver.thread luck
  | .stop who luck => driver.stop who luck

end Driver

/-- The driver right after `start`. -/
def system : StepSystem Driver Event where
  Start driver := ∃ dutyCycle clock, driver = { dutyCycle := dutyCycle, clock := clock }
  step := Driver.step

variable {driver next : Driver} {event : Event} {who : Nat} {luck : Luck}

/-! ## What a statement of the thread leaves alone -/

/-- What the thread's statements do not write. -/
structure Frame (driver next : Driver) : Prop where
  stopEvent : next.stopEvent = driver.stopEvent
  stops : next.stops = driver.stops
  gone : next.gone = driver.gone
  clock : next.clock = driver.clock
  heldSeconds : next.heldSeconds = driver.heldSeconds
  strayedSeconds : next.strayedSeconds = driver.strayedSeconds

namespace Frame

theorem refl (driver : Driver) : Frame driver driver := ⟨rfl, rfl, rfl, rfl, rfl, rfl⟩

theorem trans {last : Driver} (hfirst : Frame driver next) (hsecond : Frame next last) :
    Frame driver last :=
  ⟨hsecond.stopEvent.trans hfirst.stopEvent, hsecond.stops.trans hfirst.stops,
    hsecond.gone.trans hfirst.gone, hsecond.clock.trans hfirst.clock,
    hsecond.heldSeconds.trans hfirst.heldSeconds,
    hsecond.strayedSeconds.trans hfirst.strayedSeconds⟩

/-- The thread's own variables and its place are not among them. -/
theorem local' {started : Option ℚ} {completed deadline phaseDeadline dutyFraction idle burst : ℚ}
    {cycles : Nat} {early error held : Bool} {spot : Spot} :
    Frame driver { driver with
      idleStartedAt := started, completedIdleSeconds := completed, deadline := deadline,
      phaseDeadline := phaseDeadline, dutyFraction := dutyFraction, idleSeconds := idle,
      burstSeconds := burst, cyclesCompleted := cycles, stoppedEarly := early,
      controlError := error, held := held, spot := spot } :=
  ⟨rfl, rfl, rfl, rfl, rfl, rfl⟩

end Frame

theorem closeIdleInterval_frame (driver : Driver) : Frame driver driver.closeIdleInterval := by
  unfold Driver.closeIdleInterval
  split
  · exact .local'
  · exact .refl driver

theorem sigcont_frame (driver : Driver) (luck : Luck) : Frame driver (driver.sigcont luck).1 := by
  unfold Driver.sigcont
  split
  · exact .local'
  · exact .local'
  · exact .local'

theorem sigstop_frame (driver : Driver) (luck : Luck) : Frame driver (driver.sigstop luck) := by
  unfold Driver.sigstop
  split
  · exact .local'
  · exact .local'
  · exact .local'

theorem thread_frame (hstep : driver.thread luck = some next) : Frame driver next := by
  unfold Driver.thread at hstep
  split at hstep
  case h_1 | h_3 | h_6 | h_12 =>
    cases hstep
    exact .local'
  case h_2 =>
    split at hstep
    · cases hstep
      exact .local'
    · split at hstep
      · cases hstep
        exact .local'
      · cases hstep
        exact .local'
  case h_4 | h_10 =>
    split at hstep
    · cases hstep
      exact .local'
    · cases hstep
      exact .local'
  case h_5 =>
    cases hstep
    exact sigstop_frame driver luck
  case h_7 | h_11 =>
    split at hstep
    · cases hstep
      exact .local'
    · cases hstep
  case h_8 | h_13 =>
    cases hstep
    exact (sigcont_frame driver luck).trans .local'
  case h_9 | h_14 =>
    cases hstep
    exact (closeIdleInterval_frame driver).trans .local'
  case h_15 => cases hstep

/-! ## What a statement of the thread does -/

/-- The thread is between its `SIGSTOP` and its `SIGCONT`. -/
def Spot.holds (spot : Spot) : Bool := spot ∈ [.opening, .idling, .continuing]

/-- The interval of the books is open for the thread. -/
def Spot.booked (spot : Spot) : Bool := spot ∈ [.idling, .continuing, .closing]

/-- A statement on the thread's own variables. -/
structure Moves (driver next : Driver) : Prop where
  idleStartedAt : next.idleStartedAt = driver.idleStartedAt
  completedIdleSeconds : next.completedIdleSeconds = driver.completedIdleSeconds
  controlError : next.controlError = driver.controlError
  held : next.held = driver.held
  holds : next.spot.holds = driver.spot.holds
  booked : next.spot.booked = driver.spot.booked

inductive ThreadStep (driver : Driver) (luck : Luck) : Driver → Prop where
  | moves {next : Driver} (hmoves : Moves driver next) : ThreadStep driver luck next
  | stops (hspot : driver.spot = .stopping) : ThreadStep driver luck (driver.sigstop luck)
  | opens {deadline : ℚ} (hspot : driver.spot = .opening) :
      ThreadStep driver luck { driver with
        idleStartedAt := some driver.clock, deadline := deadline, spot := .idling }
  | continues (delivered after : Spot) (hdelivered : delivered.holds = false)
      (hafter : after.holds = false) (hbooked : delivered.booked = driver.spot.booked) :
      ThreadStep driver luck { (driver.sigcont luck).1 with
        spot := if (driver.sigcont luck).2 then delivered else after }
  | closes (after : Spot) (hspot : driver.spot.holds = false) (hafter : after.holds = false)
      (hbooked : after.booked = false) :
      ThreadStep driver luck { driver.closeIdleInterval with spot := after }

theorem thread_cases (hstep : driver.thread luck = some next) : ThreadStep driver luck next := by
  unfold Driver.thread at hstep
  split at hstep
  case h_1 hspot | h_3 hspot =>
    cases hstep
    exact .moves ⟨rfl, rfl, rfl, rfl, by rw [hspot]; rfl, by rw [hspot]; rfl⟩
  case h_2 hspot =>
    split at hstep
    · cases hstep
      exact .moves ⟨rfl, rfl, rfl, rfl, by rw [hspot]; rfl, by rw [hspot]; rfl⟩
    · split at hstep
      · cases hstep
        exact .moves ⟨rfl, rfl, rfl, rfl, by rw [hspot]; rfl, by rw [hspot]; rfl⟩
      · cases hstep
        exact .moves ⟨rfl, rfl, rfl, rfl, by rw [hspot]; rfl, by rw [hspot]; rfl⟩
  case h_4 hspot | h_10 hspot =>
    split at hstep
    · cases hstep
      exact .moves ⟨rfl, rfl, rfl, rfl, by rw [hspot]; rfl, by rw [hspot]; rfl⟩
    · cases hstep
      exact .moves ⟨rfl, rfl, rfl, rfl, by rw [hspot]; rfl, by rw [hspot]; rfl⟩
  case h_5 hspot =>
    cases hstep
    exact .stops hspot
  case h_6 hspot =>
    cases hstep
    exact .opens hspot
  case h_7 hspot | h_11 hspot =>
    split at hstep
    · cases hstep
      exact .moves ⟨rfl, rfl, rfl, rfl, by rw [hspot]; rfl, by rw [hspot]; rfl⟩
    · cases hstep
  case h_8 hspot =>
    cases hstep
    exact .continues .closing .checking rfl rfl (by rw [hspot]; rfl)
  case h_9 hspot =>
    cases hstep
    exact .closes .checking (by rw [hspot]; rfl) rfl rfl
  case h_12 hspot =>
    cases hstep
    refine .moves ⟨rfl, rfl, rfl, rfl, ?_, ?_⟩
    · rw [hspot]
      split <;> rfl
    · rw [hspot]
      split <;> rfl
  case h_13 hspot =>
    cases hstep
    exact .continues .lastClosing .ended rfl rfl (by rw [hspot]; rfl)
  case h_14 hspot =>
    cases hstep
    exact .closes .ended (by rw [hspot]; rfl) rfl rfl
  case h_15 => cases hstep

/-! ## A stop that returns leaves the payload runnable -/

/-- What a stop has found out so far: it joined the thread, and it let the payload go. -/
structure Stopped (driver : Driver) (spot : Stop) : Prop where
  joined : spot ∈ [.continuing, .closing, .reporting, .returned, .raised] → driver.spot = .ended
  event : spot ∉ [.away, .called] → driver.stopEvent = true
  released : spot ∈ [.closing, .returned] → driver.held = false
  reported : spot = .reporting → driver.controlError = false → driver.held = false
  raised : spot = .raised → driver.controlError = true

structure Sound (driver : Driver) : Prop where
  /-- Without an error, the group is stopped by a thread that is going to continue it. -/
  held : driver.held = true → driver.controlError = false → driver.spot.holds = true
  gone : driver.gone = true → driver.held = false
  stops : ∀ who, Stopped driver (driver.stops who)

/-! ### Signals -/

/-- A `SIGCONT` lets the group go, where no error keeps it from doing so. -/
theorem sigcont_held (luck : Luck) (hgone : driver.gone = true → driver.held = false) :
    ((driver.sigcont luck).2 = true → (driver.sigcont luck).1.held = false) ∧
    ((driver.sigcont luck).2 = false → (driver.sigcont luck).1.controlError = true) := by
  unfold Driver.sigcont Driver.kill
  by_cases hfails : luck.fails = true
  · simp [hfails]
  · by_cases hlost : driver.gone = true
    · simp [hfails, hlost, hgone hlost]
    · simp [hfails, hlost]

theorem sigcont_delivered (hcloses : (driver.sigcont luck).2 = true) :
    (driver.sigcont luck).1.controlError = driver.controlError := by
  unfold Driver.sigcont at hcloses ⊢
  split
  · rfl
  · rfl
  · rename_i hkill
    rw [hkill] at hcloses
    cases hcloses

theorem sigcont_gone (hgone : driver.gone = true → driver.held = false) :
    (driver.sigcont luck).1.gone = true → (driver.sigcont luck).1.held = false := by
  unfold Driver.sigcont
  split
  · exact fun _ => rfl
  · exact hgone
  · exact hgone

/-- A `SIGSTOP` that is not delivered ends the loop. -/
theorem sigstop_cases (driver : Driver) (luck : Luck) :
    driver.gone = false ∧ driver.sigstop luck = { driver with held := true, spot := .opening } ∨
      (driver.sigstop luck).held = driver.held ∧
        (driver.sigstop luck).spot = .lastContinuing ∧
        (driver.controlError = true → (driver.sigstop luck).controlError = true) := by
  unfold Driver.sigstop Driver.kill
  by_cases hfails : luck.fails = true
  · simp [hfails]
  · by_cases hlost : driver.gone = true
    · simp [hfails, hlost]
    · simp [hfails, hlost]

@[simp] theorem closeIdleInterval_held (driver : Driver) :
    driver.closeIdleInterval.held = driver.held := by
  unfold Driver.closeIdleInterval
  split <;> rfl

@[simp] theorem closeIdleInterval_controlError (driver : Driver) :
    driver.closeIdleInterval.controlError = driver.controlError := by
  unfold Driver.closeIdleInterval
  split <;> rfl

@[simp] theorem closeIdleInterval_spot (driver : Driver) :
    driver.closeIdleInterval.spot = driver.spot := by
  unfold Driver.closeIdleInterval
  split <;> rfl

/-! ### Every step keeps the payload in hand -/

theorem Sound.start {dutyCycle : DutyCycle} {clock : ℚ} :
    Sound { dutyCycle := dutyCycle, clock := clock } where
  held := fun hheld => by cases hheld
  gone := fun hgone => by cases hgone
  stops := fun _ => by constructor <;> simp

theorem Stopped.thread {spot : Stop} (hstopped : Stopped driver spot)
    (hstep : driver.thread luck = some next) : Stopped next spot := by
  have hframe := thread_frame hstep
  have hrunning : spot ∉ [.continuing, .closing, .reporting, .returned, .raised] := fun hjoined => by
    unfold Driver.thread at hstep
    rw [hstopped.joined hjoined] at hstep
    cases hstep
  refine ⟨fun hjoined => absurd hjoined hrunning, fun hcalled => ?_, fun hreleased => ?_,
    fun hreporting => ?_, fun hraised => ?_⟩
  · rw [hframe.stopEvent]
    exact hstopped.event hcalled
  · exact absurd (by revert hreleased; simp; tauto) hrunning
  · exact absurd (by simp [hreporting]) hrunning
  · exact absurd (by simp [hraised]) hrunning

theorem Sound.thread (hsound : Sound driver) (hstep : driver.thread luck = some next) :
    Sound next := by
  have hframe := thread_frame hstep
  have hstops : ∀ who, Stopped next (next.stops who) := fun who => by
    rw [hframe.stops]
    exact (hsound.stops who).thread hstep
  cases thread_cases hstep with
  | moves hmoves =>
      refine ⟨fun hheld herror => ?_, fun hgone => ?_, hstops⟩
      · rw [hmoves.holds]
        exact hsound.held (hmoves.held ▸ hheld) (hmoves.controlError ▸ herror)
      · rw [hmoves.held]
        exact hsound.gone (hframe.gone ▸ hgone)
  | stops hspot =>
      have hfree : driver.held = true → driver.controlError = true := fun hheld => by
        by_contra herror
        have hholds := hsound.held hheld (by simpa using herror)
        rw [hspot] at hholds
        cases hholds
      rcases sigstop_cases driver luck with ⟨hthere, hstopped⟩ | ⟨hheld, hspot', herror⟩
      · rw [hstopped] at hstops ⊢
        refine ⟨fun _ _ => rfl, fun hgone => ?_, hstops⟩
        rw [show driver.gone = true from hgone] at hthere
        cases hthere
      · refine ⟨fun hheld' herror' => ?_, fun hgone => ?_, hstops⟩
        · rw [herror (hfree (hheld ▸ hheld'))] at herror'
          cases herror'
        · rw [hheld]
          exact hsound.gone (hframe.gone ▸ hgone)
  | opens hspot => exact ⟨fun _ _ => rfl, hsound.gone, hstops⟩
  | continues delivered after =>
      obtain ⟨hdelivered, hfailed⟩ := sigcont_held luck hsound.gone
      refine ⟨fun hheld herror => ?_, sigcont_gone hsound.gone, hstops⟩
      cases hcloses : (driver.sigcont luck).2 with
      | true => exact absurd hheld (by simp [hdelivered hcloses])
      | false => exact absurd herror (by simp [hfailed hcloses])
  | closes after hspot hafter =>
      refine ⟨fun hheld herror => ?_, fun hgone => ?_, hstops⟩
      · simp only [closeIdleInterval_held, closeIdleInterval_controlError] at hheld herror
        rw [hsound.held hheld herror] at hspot
        cases hspot
      · simp only [closeIdleInterval_held]
        exact hsound.gone (hframe.gone ▸ hgone)

/-- A step of others: it neither stops the group nor takes an error back. -/
theorem Stopped.mono {spot : Stop} (hstopped : Stopped driver spot) (hspot : next.spot = driver.spot)
    (hevent : driver.stopEvent = true → next.stopEvent = true)
    (hheld : driver.held = false → next.held = false)
    (herror : driver.controlError = true → next.controlError = true) : Stopped next spot where
  joined := fun hjoined => by
    rw [hspot]
    exact hstopped.joined hjoined
  event := fun hcalled => hevent (hstopped.event hcalled)
  released := fun hreleased => hheld (hstopped.released hreleased)
  reported := fun hreporting hclean => hheld (hstopped.reported hreporting (by
    cases hdriver : driver.controlError with
    | false => rfl
    | true => rw [herror hdriver] at hclean; cases hclean))
  raised := fun hraised => herror (hstopped.raised hraised)

/-- A step of one call, which is somewhere else after it. -/
theorem Sound.moved (hsound : Sound driver) {spot : Stop} (hspot : next.spot = driver.spot)
    (hgone : next.gone = driver.gone) (hevent : driver.stopEvent = true → next.stopEvent = true)
    (hheld : driver.held = false → next.held = false)
    (herror : driver.controlError = true → next.controlError = true)
    (hstops : next.stops = Function.update driver.stops who spot) (hnew : Stopped next spot) :
    Sound next := by
  refine ⟨fun hstill hclean => ?_, fun hlost => ?_, fun other => ?_⟩
  · have hbefore : driver.held = true := by
      cases hdriver : driver.held with
      | true => rfl
      | false => rw [hheld hdriver] at hstill; cases hstill
    have hcleanBefore : driver.controlError = false := by
      cases hdriver : driver.controlError with
      | false => rfl
      | true => rw [herror hdriver] at hclean; cases hclean
    rw [hspot]
    exact hsound.held hbefore hcleanBefore
  · exact hheld (hsound.gone (hgone ▸ hlost))
  · rw [hstops]
    by_cases hother : other = who
    · subst hother
      rw [Function.update_self]
      exact hnew
    · rw [Function.update_of_ne hother]
      exact (hsound.stops other).mono hspot hevent hheld herror

theorem sigcont_spot (driver : Driver) (luck : Luck) :
    (driver.sigcont luck).1.spot = driver.spot := by
  unfold Driver.sigcont
  split <;> rfl

theorem sigcont_error (herror : driver.controlError = true) :
    (driver.sigcont luck).1.controlError = true := by
  unfold Driver.sigcont
  split
  · exact herror
  · exact herror
  · rfl

theorem sigcont_free (hheld : driver.held = false) : (driver.sigcont luck).1.held = false := by
  unfold Driver.sigcont
  split
  · rfl
  · exact hheld
  · exact hheld

theorem Sound.stop (hsound : Sound driver) (hstep : driver.stop who luck = some next) :
    Sound next := by
  have hstopped := hsound.stops who
  unfold Driver.stop at hstep
  cases hwho : driver.stops who with
  | away =>
      simp only [hwho] at hstep
      cases hstep
      exact hsound.moved rfl rfl id id id rfl (by constructor <;> simp)
  | called =>
      simp only [hwho] at hstep
      cases hstep
      exact hsound.moved rfl rfl (fun _ => rfl) id id rfl (by constructor <;> simp)
  | joining =>
      simp only [hwho] at hstep
      split at hstep
      · rename_i hended
        cases hstep
        rw [hwho] at hstopped
        refine hsound.moved rfl rfl id id id rfl ⟨fun _ => hended, fun _ => ?_, ?_, ?_, ?_⟩
        · exact hstopped.event (by simp)
        all_goals simp
      · cases hstep
  | continuing =>
      simp only [hwho] at hstep
      cases hstep
      rw [hwho] at hstopped
      -- The thread has ended by now, so nothing can hold the core again behind this signal.
      have hframe := sigcont_frame driver luck
      obtain ⟨hdelivered, hfailed⟩ := sigcont_held luck hsound.gone
      refine hsound.moved (sigcont_spot driver luck) hframe.gone
        (fun hevent => hframe.stopEvent.trans hevent) sigcont_free sigcont_error rfl ?_
      have hended : (driver.sigcont luck).1.spot = .ended :=
        (sigcont_spot driver luck).trans (hstopped.joined (by simp))
      have hevent : (driver.sigcont luck).1.stopEvent = true :=
        hframe.stopEvent.trans (hstopped.event (by simp))
      cases hcloses : (driver.sigcont luck).2 with
      | true => exact ⟨fun _ => hended, fun _ => hevent, fun _ => hdelivered hcloses, by simp,
          by simp⟩
      | false =>
          refine ⟨fun _ => hended, fun _ => hevent, by simp, fun _ hclean => ?_, by simp⟩
          simp [hfailed hcloses] at hclean
  | closing =>
      simp only [hwho] at hstep
      cases hstep
      rw [hwho] at hstopped
      have hframe := closeIdleInterval_frame driver
      have hheld := closeIdleInterval_held driver
      have herror := closeIdleInterval_controlError driver
      refine hsound.moved (closeIdleInterval_spot driver) hframe.gone
        (fun hevent => hframe.stopEvent.trans hevent) (fun h => hheld.trans h)
        (fun h => herror.trans h) rfl ⟨fun _ => ?_, fun _ => ?_, by simp, fun _ _ => ?_, by simp⟩
      · exact (closeIdleInterval_spot driver).trans (hstopped.joined (by simp))
      · exact hframe.stopEvent.trans (hstopped.event (by simp))
      · exact hheld.trans (hstopped.released (by simp))
  | reporting =>
      simp only [hwho] at hstep
      cases hstep
      rw [hwho] at hstopped
      refine hsound.moved rfl rfl id id id rfl ?_
      have hended := hstopped.joined (by simp)
      have hevent := hstopped.event (by simp)
      cases herror : driver.controlError with
      | true => exact ⟨fun _ => hended, fun _ => hevent, by simp, by simp, fun _ => rfl⟩
      | false => exact ⟨fun _ => hended, fun _ => hevent,
          fun _ => hstopped.reported rfl herror, by simp, by simp⟩
  | returned => simp [hwho] at hstep
  | raised => simp [hwho] at hstep

theorem Sound.step (hsound : Sound driver) (hstep : system.step driver event = some next) :
    Sound next := by
  cases event with
  | time seconds =>
      simp only [system, Driver.step] at hstep
      split at hstep
      · cases hstep
        exact ⟨hsound.held, hsound.gone, fun who => (hsound.stops who).mono rfl id id id⟩
      · cases hstep
  | payloadExits =>
      cases hstep
      exact ⟨fun hheld => absurd hheld (by simp), fun _ => rfl,
        fun who => (hsound.stops who).mono rfl id (fun _ => rfl) id⟩
  | thread luck => exact hsound.thread hstep
  | stop who luck => exact hsound.stop hstep

theorem sound_of_reachable (hreach : StepSystem.Reachable system driver) : Sound driver := by
  have hstart : ∀ driver, system.Start driver → Sound driver := by
    rintro driver ⟨dutyCycle, clock, rfl⟩
    exact .start
  have hkeep : ∀ driver event next, Sound driver → StepSystem.anyStep driver event →
      system.step driver event = some next → Sound next :=
    fun _ _ _ hsound _ hstep => hsound.step hstep
  exact hreach.invariant hstart hkeep

/-- A call moves itself alone, and does not move the thread. -/
theorem stop_spot (hstep : driver.stop who luck = some next) : next.spot = driver.spot := by
  unfold Driver.stop at hstep
  cases hspot : driver.stops who <;> simp only [hspot] at hstep
  case joining =>
    split at hstep
    · cases hstep
      rfl
    · cases hstep
  case continuing =>
    cases hstep
    exact sigcont_spot driver luck
  case closing =>
    cases hstep
    exact closeIdleInterval_spot driver
  case returned | raised => cases hstep
  all_goals
    cases hstep
    rfl

theorem stop_stops {other : Nat} (hstep : driver.stop other luck = some next)
    (hother : who ≠ other) : next.stops who = driver.stops who := by
  unfold Driver.stop at hstep
  cases hspot : driver.stops other <;> simp only [hspot] at hstep
  case joining =>
    split at hstep
    · cases hstep
      exact Function.update_of_ne hother _ _
    · cases hstep
  case returned | raised => cases hstep
  all_goals
    cases hstep
    exact Function.update_of_ne hother _ _

theorem step_returned (hstep : system.step driver event = some next)
    (hreturned : driver.stops who = .returned) : next.stops who = .returned := by
  cases event with
  | time seconds =>
      simp only [system, Driver.step] at hstep
      split at hstep
      · cases hstep
        exact hreturned
      · cases hstep
  | payloadExits =>
      cases hstep
      exact hreturned
  | thread luck =>
      have hframe := thread_frame hstep
      rw [hframe.stops]
      exact hreturned
  | stop other luck =>
      have hother : who ≠ other := by
        rintro rfl
        simp [system, Driver.step, Driver.stop, hreturned] at hstep
      rw [stop_stops hstep hother]
      exact hreturned

/-- **A stop that returns leaves the payload runnable, for good.**  Whatever the threads do after
it, and whatever becomes of their signals, the driver has ended, and the group is not stopped. -/
theorem returned_runnable {events : List Event} {later : Driver}
    (hreach : StepSystem.Reachable system driver) (hreturned : driver.stops who = .returned)
    (hrun : system.runEvents driver events = some later) :
    later.spot = .ended ∧ later.held = false := by
  induction events generalizing driver with
  | nil =>
      cases hrun
      have hstopped := (sound_of_reachable hreach).stops who
      rw [hreturned] at hstopped
      exact ⟨hstopped.joined (by simp), hstopped.released (by simp)⟩
  | cons event rest ih =>
      rw [StepSystem.runEvents_cons, Option.bind_eq_some_iff] at hrun
      obtain ⟨next, hstep, hrest⟩ := hrun
      exact ih (.step hreach trivial hstep) (step_returned hstep hreturned) hrest

/-- A stop while the payload is stopped. -/
theorem returned_runnable_idle : ∃ driver, StepSystem.Reachable system driver ∧
    driver.stops 0 = .returned ∧ driver.spot = .ended ∧ driver.held = false := by
  have hstart : system.Start { dutyCycle := {}, clock := 0 } := ⟨{}, 0, rfl⟩
  have hrun := StepSystem.exists_reachable (fun driver : Driver => driver.stops 0) Stop.returned
    [.thread {}, .thread {}, .thread {}, .thread {}, .stop 0 {}, .stop 0 {}, .thread {}, .thread {},
      .thread {}, .thread {}, .thread {}, .thread {}, .stop 0 {}, .stop 0 {}, .stop 0 {}, .stop 0 {}]
    hstart (by rfl)
  obtain ⟨driver, hreach, hreturned⟩ := hrun
  have hnow : system.runEvents driver [] = some driver := rfl
  exact ⟨driver, hreach, hreturned, returned_runnable hreach hreturned hnow⟩

/-! ## Every stop comes to an end -/

/-- The statements that a thread which is to stop has left. -/
def Spot.left : Spot → Nat
  | .stopping => 8
  | .opening => 7
  | .idling | .bursting => 6
  | .continuing | .counting | .drawing => 5
  | .closing | .phase | .began => 4
  | .looping | .checking => 3
  | .lastContinuing => 2
  | .lastClosing => 1
  | .ended => 0

/-- The statements that a call has left. -/
def Stop.left : Stop → Nat
  | .away => 6
  | .called => 5
  | .joining => 4
  | .continuing => 3
  | .closing => 2
  | .reporting => 1
  | .returned | .raised => 0

theorem Spot.left_le (spot : Spot) : spot.left ≤ 8 := by
  cases spot <;> simp [Spot.left]

theorem Stop.left_le (spot : Stop) : spot.left ≤ 6 := by
  cases spot <;> simp [Stop.left]

theorem sigstop_left (driver : Driver) (luck : Luck) : (driver.sigstop luck).spot.left < 8 := by
  unfold Driver.sigstop
  split <;> simp [Spot.left]

/-- A thread that is to stop comes closer to its end with every statement. -/
theorem thread_left (hevent : driver.stopEvent = true) (hstep : driver.thread luck = some next) :
    next.spot.left < driver.spot.left := by
  unfold Driver.thread at hstep
  cases hspot : driver.spot <;> simp only [hspot, hevent] at hstep
  case stopping =>
    cases hstep
    exact sigstop_left driver luck
  case continuing | lastContinuing =>
    cases hstep
    simp only
    split <;> simp [Spot.left]
  case idling | bursting =>
    split at hstep
    · cases hstep
      simp [Spot.left]
    · cases hstep
  case counting =>
    cases hstep
    simp only
    split <;> simp [Spot.left]
  case looping | checking =>
    rw [if_pos trivial] at hstep
    cases hstep
    simp [Spot.left]
  case phase =>
    rw [if_neg (by simp)] at hstep
    cases hstep
    simp [Spot.left]
  case ended => cases hstep
  all_goals
    cases hstep
    simp [Spot.left]

theorem stop_left (hstep : driver.stop who luck = some next) :
    (next.stops who).left < (driver.stops who).left := by
  unfold Driver.stop at hstep
  cases hspot : driver.stops who <;> simp only [hspot] at hstep
  case joining =>
    split at hstep
    · cases hstep
      simp [Stop.left]
    · cases hstep
  case continuing =>
    cases hstep
    simp only [Function.update_self]
    split <;> simp [Stop.left]
  case reporting =>
    cases hstep
    simp only [Function.update_self]
    split <;> simp [Stop.left]
  case returned | raised => cases hstep
  all_goals
    cases hstep
    simp [Stop.left]

theorem step_stopEvent (hstep : system.step driver event = some next)
    (hevent : driver.stopEvent = true) : next.stopEvent = true := by
  cases event with
  | time seconds =>
      simp only [system, Driver.step] at hstep
      split at hstep
      · cases hstep
        exact hevent
      · cases hstep
  | payloadExits =>
      cases hstep
      exact hevent
  | thread luck =>
      rw [(thread_frame hstep).stopEvent]
      exact hevent
  | stop other luck =>
      simp only [system, Driver.step, Driver.stop] at hstep
      cases hspot : driver.stops other <;> simp only [hspot] at hstep
      case called =>
        cases hstep
        rfl
      case joining =>
        split at hstep
        · cases hstep
          exact hevent
        · cases hstep
      case continuing =>
        cases hstep
        exact (sigcont_frame driver luck).stopEvent.trans hevent
      case closing =>
        cases hstep
        exact (closeIdleInterval_frame driver).stopEvent.trans hevent
      case returned | raised => cases hstep
      all_goals
        cases hstep
        exact hevent

/-- The step is one of the thread or of the call. -/
def Event.ofStop (who : Nat) : Event → Bool
  | .thread _ => true
  | .stop other _ => decide (other = who)
  | _ => false

/-- What the thread and a call have left together. -/
def stepsLeft (driver : Driver) (who : Nat) : Nat :=
  driver.spot.left + (driver.stops who).left

theorem step_stepsLeft (who : Nat) (hstep : system.step driver event = some next)
    (hevent : driver.stopEvent = true) :
    stepsLeft next who + (if event.ofStop who then 1 else 0) ≤ stepsLeft driver who := by
  unfold stepsLeft
  cases event with
  | time seconds =>
      simp only [system, Driver.step] at hstep
      split at hstep
      · cases hstep
        exact Nat.le_refl _
      · cases hstep
  | payloadExits =>
      cases hstep
      exact Nat.le_refl _
  | thread luck =>
      have hleft := thread_left hevent hstep
      have hstops := (thread_frame hstep).stops
      rw [hstops, Event.ofStop, if_pos rfl]
      omega
  | stop other luck =>
      have hspot := stop_spot hstep
      by_cases hother : other = who
      · subst hother
        have hleft := stop_left hstep
        rw [hspot, Event.ofStop, decide_eq_true rfl, if_pos rfl]
        omega
      · have hstops := stop_stops hstep (Ne.symm hother)
        rw [hspot, hstops, Event.ofStop, decide_eq_false hother]
        simp

/-- Until a call is through, the thread or the call can take a step. -/
theorem stop_progress (hevent : driver.stopEvent = true)
    (hunfinished : driver.stops who ≠ .returned ∧ driver.stops who ≠ .raised) :
    (system.step driver (.thread {})).isSome = true ∨
      (system.step driver (.stop who {})).isSome = true := by
  by_cases hended : driver.spot = .ended
  · refine .inr ?_
    simp only [system, Driver.step, Driver.stop]
    cases hwho : driver.stops who with
    | returned => exact absurd hwho hunfinished.1
    | raised => exact absurd hwho hunfinished.2
    | _ => simp [hended]
  · refine .inl ?_
    have hawake : driver.awake = true := by
      unfold Driver.awake
      rw [hevent, Bool.true_or]
    simp only [system, Driver.step, Driver.thread]
    cases hspot : driver.spot with
    | ended => exact absurd hspot hended
    | phase =>
        simp only [hevent]
        split <;> rfl
    | _ => simp [hevent, hawake]

/-- **Every stop comes to an end.**  Once the stop event is set, the thread and a call of `stop`
take fourteen steps at the most, whatever else happens in between, and one of them can take a step
until the call has returned or raised its error. -/
theorem stop_ends {events : List Event} {later : Driver} (hevent : driver.stopEvent = true)
    (hrun : system.runEvents driver events = some later) (who : Nat) :
    events.countP (·.ofStop who) ≤ 14 ∧
      (later.stops who ≠ .returned → later.stops who ≠ .raised →
        (system.step later (.thread {})).isSome = true ∨
          (system.step later (.stop who {})).isSome = true) := by
  have hbound : stepsLeft later who + events.countP (·.ofStop who) ≤ stepsLeft driver who ∧
      later.stopEvent = true := by
    induction events generalizing driver with
    | nil =>
        cases hrun
        exact ⟨Nat.le_refl _, hevent⟩
    | cons event rest ih =>
        rw [StepSystem.runEvents_cons, Option.bind_eq_some_iff] at hrun
        obtain ⟨next, hstep, hrest⟩ := hrun
        obtain ⟨hcount, hlater⟩ := ih (step_stopEvent hstep hevent) hrest
        have hfirst := step_stepsLeft who hstep hevent
        rw [List.countP_cons]
        exact ⟨by omega, hlater⟩
  refine ⟨?_, fun hreturned hraised => stop_progress hbound.2 ⟨hreturned, hraised⟩⟩
  have hthread := driver.spot.left_le
  have hcall := (driver.stops who).left_le
  unfold stepsLeft at hbound
  omega

/-- A driver that is to stop while the payload is stopped, in a random phase. -/
def pausing : Driver where
  dutyCycle := { randomPhases := true }
  clock := 0
  stopEvent := true
  spot := .idling
  held := true
  idleStartedAt := some 0
  stops := fun _ => .joining

theorem stop_ends_random : ∃ later,
    system.runEvents pausing [.thread {}, .time 1, .thread {}] = some later ∧
    ((system.step later (.thread {})).isSome = true ∨
      (system.step later (.stop 0 {})).isSome = true) := by
  refine ⟨_, rfl, (@stop_ends pausing [.thread {}, .time 1, .thread {}] _ rfl rfl 0).2 ?_ ?_⟩
  · decide
  · decide

/-! ## The books of the idle time -/

/-- Without an error, the group is stopped and the interval is open where the thread has it so. -/
structure Books (driver : Driver) : Prop where
  held : driver.controlError = false → driver.held = (driver.spot.holds && !driver.gone)
  opened : driver.controlError = false → driver.idleStartedAt.isSome = driver.spot.booked

theorem sigcont_idle (driver : Driver) (luck : Luck) :
    (driver.sigcont luck).1.idleStartedAt = driver.idleStartedAt ∧
      (driver.sigcont luck).1.completedIdleSeconds = driver.completedIdleSeconds := by
  unfold Driver.sigcont
  split
  · exact ⟨rfl, rfl⟩
  · exact ⟨rfl, rfl⟩
  · exact ⟨rfl, rfl⟩

theorem closeIdleInterval_idle (driver : Driver) :
    driver.closeIdleInterval.idleStartedAt = none := by
  unfold Driver.closeIdleInterval
  split
  · rfl
  · rename_i hnone
    exact hnone

theorem sigstop_books (hbooks : Books driver) (hspot : driver.spot = .stopping) :
    Books (driver.sigstop luck) := by
  have hopened := hbooks.opened
  have hheld := hbooks.held
  rw [hspot] at hopened hheld
  unfold Driver.sigstop Driver.kill
  by_cases hfails : luck.fails = true
  · simp only [hfails, if_true]
    exact ⟨fun herror => absurd herror (by simp), fun herror => absurd herror (by simp)⟩
  · by_cases hgone : driver.gone = true
    · simp only [hfails, hgone, if_true, Bool.false_eq_true, if_false]
      exact ⟨fun herror => (hheld herror).trans rfl, fun herror => (hopened herror).trans rfl⟩
    · simp only [hfails, hgone, Bool.false_eq_true, if_false]
      exact ⟨fun _ => by simp [Spot.holds], fun herror => (hopened herror).trans rfl⟩

theorem Books.thread (hsound : Sound driver) (hbooks : Books driver)
    (hstep : driver.thread luck = some next) : Books next := by
  have hgone := (thread_frame hstep).gone
  cases thread_cases hstep with
  | moves hmoves =>
      refine ⟨fun herror => ?_, fun herror => ?_⟩
      · rw [hmoves.held, hmoves.holds, hgone]
        exact hbooks.held (hmoves.controlError ▸ herror)
      · rw [hmoves.idleStartedAt, hmoves.booked]
        exact hbooks.opened (hmoves.controlError ▸ herror)
  | stops hspot => exact sigstop_books hbooks hspot
  | opens hspot =>
      refine ⟨fun herror => ?_, fun _ => rfl⟩
      have hheld := hbooks.held herror
      rw [hspot] at hheld
      exact hheld
  | continues delivered after hdelivered hafter hbooked =>
      obtain ⟨hfree, hfailed⟩ := sigcont_held luck hsound.gone
      cases hcloses : (driver.sigcont luck).2 with
      | true =>
          have herror := sigcont_delivered hcloses
          refine ⟨fun _ => ?_, fun hclean => ?_⟩
          · simp [hfree hcloses, hdelivered]
          · simp only [if_true, hbooked, (sigcont_idle driver luck).1]
            exact hbooks.opened (herror ▸ hclean)
      | false =>
          have herror := hfailed hcloses
          refine ⟨fun hclean => ?_, fun hclean => ?_⟩
          · exact absurd hclean (by simp [herror])
          · exact absurd hclean (by simp [herror])
  | closes after hspot hafter hbooked =>
      refine ⟨fun herror => ?_, fun _ => ?_⟩
      · have hheld := hbooks.held ((closeIdleInterval_controlError driver).symm.trans herror)
        rw [hspot] at hheld
        simp [hheld, hafter]
      · simp [closeIdleInterval_idle, hbooked]

theorem Books.stop (hsound : Sound driver) (hbooks : Books driver)
    (hstep : driver.stop who luck = some next) : Books next := by
  have hstopped := hsound.stops who
  simp only [Driver.stop] at hstep
  cases hwho : driver.stops who <;> simp only [hwho] at hstep hstopped
  case joining =>
    split at hstep
    · cases hstep
      exact ⟨hbooks.held, hbooks.opened⟩
    · cases hstep
  case continuing =>
    cases hstep
    have hended : driver.spot = .ended := hstopped.joined (by simp)
    have hspot := sigcont_spot driver luck
    obtain ⟨hfree, hfailed⟩ := sigcont_held luck hsound.gone
    cases hcloses : (driver.sigcont luck).2 with
    | true =>
        refine ⟨fun _ => ?_, fun hclean => ?_⟩
        · simp [hfree hcloses, hspot, hended, Spot.holds]
        · simp only [hspot, (sigcont_idle driver luck).1]
          exact hbooks.opened (sigcont_delivered hcloses ▸ hclean)
    | false =>
        have herror := hfailed hcloses
        exact ⟨fun hclean => absurd hclean (by simp [herror]),
          fun hclean => absurd hclean (by simp [herror])⟩
  case closing =>
    cases hstep
    have hended : driver.spot = .ended := hstopped.joined (by simp)
    refine ⟨fun herror => ?_, fun _ => ?_⟩
    · have hheld := hbooks.held ((closeIdleInterval_controlError driver).symm.trans herror)
      simp only [closeIdleInterval_held, closeIdleInterval_spot,
        (closeIdleInterval_frame driver).gone]
      exact hheld
    · simp [closeIdleInterval_idle, hended, Spot.booked]
  case returned | raised => cases hstep
  all_goals
    cases hstep
    exact ⟨hbooks.held, hbooks.opened⟩

theorem Books.step (hsound : Sound driver) (hbooks : Books driver)
    (hstep : system.step driver event = some next) : Books next := by
  cases event with
  | time seconds =>
      simp only [system, Driver.step] at hstep
      split at hstep
      · cases hstep
        exact ⟨hbooks.held, hbooks.opened⟩
      · cases hstep
  | payloadExits =>
      cases hstep
      exact ⟨fun _ => by simp, hbooks.opened⟩
  | thread luck => exact hbooks.thread hsound hstep
  | stop other luck => exact hbooks.stop hsound hstep

theorem books_of_reachable (hreach : StepSystem.Reachable system driver) : Books driver := by
  have hstart : ∀ driver, system.Start driver → Sound driver ∧ Books driver := by
    rintro driver ⟨dutyCycle, clock, rfl⟩
    exact ⟨.start, fun _ => rfl, fun _ => rfl⟩
  have hkeep : ∀ driver event next, Sound driver ∧ Books driver → StepSystem.anyStep driver event →
      system.step driver event = some next → Sound next ∧ Books next :=
    fun _ _ _ hinv _ hstep => ⟨hinv.1.step hstep, hinv.2.step hinv.1 hstep⟩
  have hinv : Sound driver ∧ Books driver := hreach.invariant hstart hkeep
  exact hinv.2

/-! ## What is reported as idle -/

theorem idle_of_same (hstarted : next.idleStartedAt = driver.idleStartedAt)
    (hcompleted : next.completedIdleSeconds = driver.completedIdleSeconds)
    (hclock : next.clock = driver.clock) :
    next.intentionalIdleSeconds = driver.intentionalIdleSeconds := by
  unfold Driver.intentionalIdleSeconds
  rw [hstarted, hcompleted, hclock]

/-- Closing the interval moves it into the sum. -/
theorem closeIdleInterval_reading (driver : Driver) :
    driver.closeIdleInterval.intentionalIdleSeconds = driver.intentionalIdleSeconds := by
  unfold Driver.closeIdleInterval
  cases hstarted : driver.idleStartedAt with
  | some started =>
      simp only [Driver.intentionalIdleSeconds, hstarted]
      ring
  | none => rfl

theorem thread_idle (hbooks : Books driver) (herror : driver.controlError = false)
    (hstep : driver.thread luck = some next) :
    next.intentionalIdleSeconds = driver.intentionalIdleSeconds := by
  have hclock := (thread_frame hstep).clock
  cases thread_cases hstep with
  | moves hmoves => exact idle_of_same hmoves.idleStartedAt hmoves.completedIdleSeconds hclock
  | stops hspot =>
      refine idle_of_same ?_ ?_ hclock
      · unfold Driver.sigstop
        split <;> rfl
      · unfold Driver.sigstop
        split <;> rfl
  | opens hspot =>
      -- the interval before was closed, or its time would be lost here
      have hclosed := hbooks.opened herror
      rw [hspot] at hclosed
      have hnone : driver.idleStartedAt = none := Option.not_isSome_iff_eq_none.mp (by
        rw [hclosed]
        decide)
      simp [Driver.intentionalIdleSeconds, hnone]
  | continues delivered after =>
      exact idle_of_same (sigcont_idle driver luck).1 (sigcont_idle driver luck).2 hclock
  | closes after => exact closeIdleInterval_reading driver

theorem stop_idle (hstep : driver.stop who luck = some next) :
    next.intentionalIdleSeconds = driver.intentionalIdleSeconds ∧ next.clock = driver.clock := by
  simp only [Driver.stop] at hstep
  cases hwho : driver.stops who <;> simp only [hwho] at hstep
  case joining =>
    split at hstep
    · cases hstep
      exact ⟨rfl, rfl⟩
    · cases hstep
  case continuing =>
    cases hstep
    have hclock := (sigcont_frame driver luck).clock
    exact ⟨idle_of_same (sigcont_idle driver luck).1 (sigcont_idle driver luck).2 hclock, hclock⟩
  case closing =>
    cases hstep
    exact ⟨closeIdleInterval_reading driver, (closeIdleInterval_frame driver).clock⟩
  case returned | raised => cases hstep
  all_goals
    cases hstep
    exact ⟨rfl, rfl⟩

/-- While the interval is open, the reading goes with the clock; else it stands still. -/
theorem elapse_idle (driver : Driver) (seconds : ℚ) :
    (driver.elapse seconds).intentionalIdleSeconds = driver.intentionalIdleSeconds +
      if driver.idleStartedAt.isSome then seconds else 0 := by
  unfold Driver.elapse Driver.intentionalIdleSeconds
  cases driver.idleStartedAt with
  | some started =>
      simp only [Option.isSome_some, if_true]
      ring
  | none => simp

/-- In a step, the idle time that is reported grows at most as the clock does. -/
theorem step_idle (hbooks : Books driver) (herror : driver.controlError = false)
    (hstep : system.step driver event = some next) :
    driver.intentionalIdleSeconds ≤ next.intentionalIdleSeconds ∧
      next.intentionalIdleSeconds - driver.intentionalIdleSeconds ≤ next.clock - driver.clock := by
  cases event with
  | time seconds =>
      simp only [system, Driver.step] at hstep
      split at hstep
      · rename_i hseconds
        cases hstep
        rw [elapse_idle, show (driver.elapse seconds).clock = driver.clock + seconds from rfl]
        split
        · exact ⟨by linarith, by linarith⟩
        · exact ⟨by linarith, by linarith⟩
      · cases hstep
  | payloadExits =>
      cases hstep
      exact ⟨le_refl _, by simp [Driver.intentionalIdleSeconds]⟩
  | thread luck =>
      rw [thread_idle hbooks herror hstep, (thread_frame hstep).clock]
      exact ⟨le_refl _, by simp⟩
  | stop who luck =>
      obtain ⟨hidle, hclock⟩ := stop_idle hstep
      rw [hidle, hclock]
      exact ⟨le_refl _, by simp⟩

theorem step_clock (hstep : system.step driver event = some next) : driver.clock ≤ next.clock := by
  cases event with
  | time seconds =>
      simp only [system, Driver.step] at hstep
      split at hstep
      · rename_i hseconds
        cases hstep
        rw [show (driver.elapse seconds).clock = driver.clock + seconds from rfl]
        linarith
      · cases hstep
  | payloadExits =>
      cases hstep
      exact le_refl _
  | thread luck => exact le_of_eq (thread_frame hstep).clock.symm
  | stop who luck => exact le_of_eq (stop_idle hstep).2.symm

/-- An error stays. -/
theorem step_controlError (hstep : system.step driver event = some next)
    (herror : driver.controlError = true) : next.controlError = true := by
  cases event with
  | time seconds =>
      simp only [system, Driver.step] at hstep
      split at hstep
      · cases hstep
        exact herror
      · cases hstep
  | payloadExits =>
      cases hstep
      exact herror
  | thread luck =>
      cases thread_cases hstep with
      | moves hmoves => exact hmoves.controlError.trans herror
      | stops hspot =>
          unfold Driver.sigstop
          split
          · exact herror
          · exact herror
          · rfl
      | opens hspot => exact herror
      | continues delivered after => exact sigcont_error herror
      | closes after => exact (closeIdleInterval_controlError driver).trans herror
  | stop who luck =>
      simp only [system, Driver.step, Driver.stop] at hstep
      cases hwho : driver.stops who <;> simp only [hwho] at hstep
      case joining =>
        split at hstep
        · cases hstep
          exact herror
        · cases hstep
      case continuing =>
        cases hstep
        exact sigcont_error herror
      case closing =>
        cases hstep
        exact (closeIdleInterval_controlError driver).trans herror
      case returned | raised => cases hstep
      all_goals
        cases hstep
        exact herror

theorem controlError_before (event : Event) (hstep : system.step driver event = some next)
    (hclean : next.controlError = false) : driver.controlError = false := by
  cases herror : driver.controlError with
  | false => rfl
  | true =>
      rw [step_controlError hstep herror] at hclean
      cases hclean

/-- What is reported strays from the time the group was stopped by what the books were behind. -/
structure Strays (driver : Driver) : Prop where
  below : driver.controlError = false →
    driver.heldSeconds - driver.strayedSeconds ≤ driver.intentionalIdleSeconds
  above : driver.controlError = false →
    driver.intentionalIdleSeconds ≤ driver.heldSeconds + driver.strayedSeconds

theorem stop_ghosts (hstep : driver.stop who luck = some next) :
    next.heldSeconds = driver.heldSeconds ∧ next.strayedSeconds = driver.strayedSeconds := by
  simp only [Driver.stop] at hstep
  cases hwho : driver.stops who <;> simp only [hwho] at hstep
  case joining =>
    split at hstep
    · cases hstep
      exact ⟨rfl, rfl⟩
    · cases hstep
  case continuing =>
    cases hstep
    exact ⟨(sigcont_frame driver luck).heldSeconds, (sigcont_frame driver luck).strayedSeconds⟩
  case closing =>
    cases hstep
    exact ⟨(closeIdleInterval_frame driver).heldSeconds,
      (closeIdleInterval_frame driver).strayedSeconds⟩
  case returned | raised => cases hstep
  all_goals
    cases hstep
    exact ⟨rfl, rfl⟩

theorem Strays.elapse (hstrays : Strays driver) {seconds : ℚ} (hseconds : 0 ≤ seconds) :
    Strays (driver.elapse seconds) := by
  have hghosts : (driver.elapse seconds).heldSeconds =
      driver.heldSeconds + (if driver.held then seconds else 0) ∧
      (driver.elapse seconds).strayedSeconds = driver.strayedSeconds +
        (if driver.held = driver.idleStartedAt.isSome then 0 else seconds) := ⟨rfl, rfl⟩
  refine ⟨fun herror => ?_, fun herror => ?_⟩
  · have hbelow := hstrays.below herror
    rw [elapse_idle, hghosts.1, hghosts.2]
    cases driver.held <;> cases driver.idleStartedAt.isSome <;> simp <;> linarith
  · have habove := hstrays.above herror
    rw [elapse_idle, hghosts.1, hghosts.2]
    cases driver.held <;> cases driver.idleStartedAt.isSome <;> simp <;> linarith

theorem Strays.step (hbooks : Books driver) (hstrays : Strays driver)
    (hstep : system.step driver event = some next) : Strays next := by
  cases event with
  | time seconds =>
      simp only [system, Driver.step] at hstep
      split at hstep
      · rename_i hseconds
        cases hstep
        exact hstrays.elapse hseconds
      · cases hstep
  | payloadExits =>
      cases hstep
      exact ⟨hstrays.below, hstrays.above⟩
  | thread luck =>
      have hframe := thread_frame hstep
      refine ⟨fun hclean => ?_, fun hclean => ?_⟩
      · have herror := controlError_before (.thread luck) hstep hclean
        rw [hframe.heldSeconds, hframe.strayedSeconds, thread_idle hbooks herror hstep]
        exact hstrays.below herror
      · have herror := controlError_before (.thread luck) hstep hclean
        rw [hframe.heldSeconds, hframe.strayedSeconds, thread_idle hbooks herror hstep]
        exact hstrays.above herror
  | stop who luck =>
      obtain ⟨hheld, hstrayed⟩ := stop_ghosts hstep
      refine ⟨fun hclean => ?_, fun hclean => ?_⟩
      · have herror := controlError_before (.stop who luck) hstep hclean
        rw [hheld, hstrayed, (stop_idle hstep).1]
        exact hstrays.below herror
      · have herror := controlError_before (.stop who luck) hstep hclean
        rw [hheld, hstrayed, (stop_idle hstep).1]
        exact hstrays.above herror

/-- **The idle time reported is the time the payload was stopped.**  As long as no signal fails
with an error of its own, they differ at most by the time in which the books were behind, and that
is only between a signal and its entry, or when the payload has exited. -/
theorem idle_is_held (hreach : StepSystem.Reachable system driver)
    (herror : driver.controlError = false) :
    |driver.intentionalIdleSeconds - driver.heldSeconds| ≤ driver.strayedSeconds ∧
      (driver.held ≠ driver.idleStartedAt.isSome →
        driver.spot = .opening ∨ driver.spot = .closing ∨ driver.gone = true) := by
  have hstart : ∀ driver, system.Start driver → Sound driver ∧ Books driver ∧ Strays driver := by
    rintro driver ⟨dutyCycle, clock, rfl⟩
    refine ⟨.start, ⟨fun _ => rfl, fun _ => rfl⟩, fun _ => ?_, fun _ => ?_⟩
    · simp [Driver.intentionalIdleSeconds]
    · simp [Driver.intentionalIdleSeconds]
  have hkeep : ∀ driver event next, Sound driver ∧ Books driver ∧ Strays driver →
      StepSystem.anyStep driver event → system.step driver event = some next →
      Sound next ∧ Books next ∧ Strays next :=
    fun _ _ _ hinv _ hstep =>
      ⟨hinv.1.step hstep, hinv.2.1.step hinv.1 hstep, hinv.2.2.step hinv.2.1 hstep⟩
  obtain ⟨-, hbooks, hstrays⟩ : Sound driver ∧ Books driver ∧ Strays driver :=
    hreach.invariant hstart hkeep
  refine ⟨?_, fun hapart => ?_⟩
  · have hbelow := hstrays.below herror
    have habove := hstrays.above herror
    rw [abs_le]
    exact ⟨by linarith, by linarith⟩
  · rw [hbooks.held herror, hbooks.opened herror] at hapart
    cases hgone : driver.gone with
    | true => exact .inr (.inr rfl)
    | false =>
        revert hapart
        cases driver.spot <;> simp [hgone, Spot.holds, Spot.booked]

/-- Ten seconds idle. -/
theorem idle_is_held_ten : ∃ driver, StepSystem.Reachable system driver ∧
    driver.controlError = false ∧
    |driver.intentionalIdleSeconds - driver.heldSeconds| ≤ driver.strayedSeconds := by
  have hstart : system.Start { dutyCycle := {}, clock := 0 } := ⟨{}, 0, rfl⟩
  have hrun := StepSystem.exists_reachable (fun driver : Driver => driver.controlError) false
    [.thread {}, .thread {}, .thread {}, .thread {}, .time 10] hstart (by rfl)
  obtain ⟨driver, hreach, herror⟩ := hrun
  exact ⟨driver, hreach, herror, (idle_is_held hreach herror).1⟩

end Duty
end Engine
end CoreCycler
