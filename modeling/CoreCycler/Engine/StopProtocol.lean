import CoreCycler.Engine.Scheduler
import CoreCycler.Engine.StoppedBatch

/-!
# Stopping a run

`CoreScheduler.run` and `ParallelStress.run` on their worker's thread, and any number of calls
of `stop` beside it.  A step is one statement on the stop event, the lifecycle lock or the
lifecycle state, one stage of the supervised batch, or the end of an idle watch.

Both runs clear the stop event as they begin.  A stop that set it before is lost with that,
unless the scheduler sees from its lifecycle state that it is to stop, which `stop` changes
only after it has set the event.  A run that loses no stop so launches nothing once a `stop`
has returned, and ends (`heeded_of_reachable`); it gives lanes that it did not launch no
verdict either, as long as nothing but the stop keeps them from their launch.
-/

namespace CoreCycler
namespace Engine
namespace StopProtocol

open Library Supervisor

/-! ## The two runs -/

inductive TestState where
  | idle
  | running
  | stopping
  | finished
deriving DecidableEq, Repr

inductive Kind where
  | coreScheduler
  | parallelStress
deriving DecidableEq, Repr

/-- What a run is set up with.  Its lanes are those of different cores. -/
structure Plan where
  slot : SlotConfig
  backend : Backend
  secondsPerCore : ℚ
  cores : List Nat
  /-- The lane of a core that is in the topology. -/
  laneOf : Nat → Option Lane
  cycleCount : Nat := 1
  stopOnError : Bool := false
  settles : Bool := false
  variableLoad : Bool := false
  dutyCycle : Bool := false
  idlesBetweenCores : Bool := false
  idleStabilityTest : Bool := false
  distinct : cores.Nodup
  own : ∀ core lane, laneOf core = some lane → lane.coreId = core

def Plan.lanes (plan : Plan) : List Lane := plan.cores.filterMap plan.laneOf

/-- Who holds the lifecycle lock; a call of `stop` changes the state before it lets go. -/
inductive Holder where
  | run
  | stop (changed : Bool)
deriving DecidableEq

/-- What a batch is run for. -/
inductive Work where
  | solo (lane : Lane)
  /-- A segment under load of the variable load. -/
  | segment (lane : Lane)
  | all

/-- Where a run stands. -/
inductive RunPhase where
  | called
  /-- The scheduler holds the lock. -/
  | locked
  | marked
  | cleared
  /-- `ParallelStress` collects its lanes, and asks how much memory each gets. -/
  | preparing
  | sizing
  | nextCycle
  /-- The loop over the cores of a cycle, which is complete when none was left out. -/
  | nextCore (complete : Bool)
  | settling (lane : Lane)
  | supervising (work : Work) (batch : Batch)
  | varying (lane : Lane) (loadOn : Bool)
  | pausing (lane : Lane)
  | resting (lane : Lane)
  | restingIdle (lane : Lane)
  | tested
  | idling
  | finishing
  | ended

/-- A run, the stop event and the lifecycle that it shares with the calls of `stop`. -/
structure Control where
  kind : Kind
  plan : Plan
  lifecycle : TestState
  stopEvent : Bool
  lock : Option Holder := none
  /-- The calls of `stop` that have set the event and not yet taken the lock, or not yet
  returned where there is none. -/
  calls : Nat := 0
  phase : RunPhase := .called
  /-- The cores that the cycle has left. -/
  rest : List Nat := []
  cyclesLeft : Nat := 0
  results : List StressResult := []
  /-- Kept for the statements: a call of `stop` has set the event. -/
  requested : Bool := false
  /-- Kept for the statements: a call of `stop` has returned. -/
  returned : Bool := false
  /-- Kept for the statements: the lanes launched after that. -/
  lateLaunches : List Nat := []
  /-- Kept for the statements: the lanes that got a verdict after that without a launch. -/
  lateVerdicts : List Nat := []

/-! ## What a run does -/

namespace Control

/-- A batch of fresh lanes, on the stop event of the run. -/
def freshBatch (state : Control) (phase : String) (stopOnFirstFailure : Bool) (lanes : List Lane)
    (duration : ℚ) : Batch where
  sup := { state.plan.slot.supervisor phase stopOnFirstFailure lanes with stop := state.stopEvent }
  backend := state.plan.backend
  duration := duration

def soloPhase (lane : Lane) : String := s!"stress (CPU {lane.cpuList})"

/-- Start the stress of a core. -/
def stress (state : Control) (lane : Lane) : Control :=
  { state with
    phase := .supervising (.solo lane)
      (state.freshBatch (soloPhase lane) false [lane] state.plan.secondsPerCore) }

/-- The test of a core ends with a result. -/
def conclude (state : Control) (result : StressResult) : Control :=
  { state with results := state.results ++ [result], phase := .tested }

/-- A failure sets the stop event where the first error is to stop the run. -/
def afterFailure (state : Control) : Control :=
  { state with stopEvent := state.stopEvent || state.plan.stopOnError }

def idleFailure (lane : Lane) (error : String) : StressResult where
  coreId := lane.coreId
  passed := false
  errorMessage := some error
  errorType := some (classifyError (some error))

/-- A verdict on a lane that was not launched. -/
def note (state : Control) (core : Nat) : Control :=
  if state.returned then { state with lateVerdicts := state.lateVerdicts ++ [core] } else state

def notes (state : Control) (cores : List Nat) : Control := cores.foldl note state

/-- What comes after the load: rest if it is configured, else the result. -/
def afterRest (state : Control) (lane : Lane) : Control :=
  if state.stopEvent && (state.plan.variableLoad || state.plan.idleStabilityTest) then
    { state with phase := .tested }
  else
    state.conclude { coreId := lane.coreId, passed := true }

/-- The end of a supervised batch. -/
def collect (state : Control) (work : Work) (batch : Batch) : Control :=
  match work with
  | .all =>
      { state with
        results := state.results ++ batch.sup.runs.filterMap (·.verdict)
        phase := .ended }
  | .solo lane =>
      match batch.sup.runs.head?.bind (·.verdict) with
      | none => { state with phase := .tested }
      | some verdict =>
          if verdict.passed then
            -- A duty cycle varies the load itself.
            if state.plan.variableLoad && !state.plan.dutyCycle && !state.stopEvent then
              { state with phase := .varying lane true }
            else
              { state with phase := .resting lane }
          else
            state.afterFailure.conclude { verdict with coreId := lane.coreId }
  | .segment lane =>
      match batch.sup.runs.head?.bind (·.verdict) with
      -- A segment without a verdict was stopped, and so is the run.
      | none => { state with stopEvent := true, phase := .resting lane }
      | some verdict =>
          if verdict.passed then
            { state with phase := .varying lane false }
          else
            state.afterFailure.conclude { verdict with coreId := lane.coreId }

/-- The next core of the cycle. -/
def testCore (state : Control) (core : Nat) (rest : List Nat) : Control :=
  let state := { state with rest }
  match state.plan.laneOf core with
  | none => { state with phase := .tested }
  | some lane =>
      if state.plan.settles then { state with phase := .settling lane } else state.stress lane

/-- The lanes of all cores, unless one is not in the topology. -/
def prepare (state : Control) : Control :=
  match state.plan.cores.find? fun core => (state.plan.laneOf core).isNone with
  | some core =>
      let failed := { state with
        results :=
          [{ coreId := core
             passed := false
             errorMessage := some s!"core {core} not in topology"
             errorType := some .startup }]
        phase := .ended }
      failed.note core
  | none => { state with phase := if state.plan.lanes = [] then .ended else .sizing }

/-- The stages of a run that only look at what they share. -/
def proceed (state : Control) : Option Control :=
  match state.phase with
  | .preparing => some state.prepare
  | .nextCycle =>
      match state.cyclesLeft with
      | 0 => some { state with phase := .finishing }
      | cycles + 1 =>
          some { state with
            cyclesLeft := cycles
            rest := state.plan.cores
            -- A stop in front of the first core leaves the cycle incomplete.
            phase := .nextCore (!state.stopEvent) }
  | .nextCore complete =>
      match state.rest with
      | [] => some { state with phase := if complete then .nextCycle else .finishing }
      | core :: rest =>
          if state.stopEvent then some { state with phase := .finishing }
          else some (state.testCore core rest)
  | .supervising work batch =>
      if batch.phase = .done then some (state.collect work batch) else none
  | .resting lane =>
      if state.plan.idleStabilityTest && !state.stopEvent then
        some { state with phase := .restingIdle lane }
      else
        some (state.afterRest lane)
  | .tested =>
      if state.stopEvent then some { state with phase := .finishing }
      else if state.plan.idlesBetweenCores then some { state with phase := .idling }
      else some { state with phase := .nextCore true }
  | .finishing =>
      -- The run ends under the lock, which it takes only while nobody holds it.
      if state.lock = none then some { state with lifecycle := .finished, phase := .ended }
      else none
  | _ => none

/-- The end of an idle watch, which sets the stop event where it has tripped. -/
def idle (state : Control) (error : Option String) (tripped : Bool) : Option Control :=
  let watched := { state with stopEvent := state.stopEvent || tripped }
  let failed := if error.isSome then watched.afterFailure else watched
  match state.phase with
  | .settling lane =>
      match error with
      | some message => some ((failed.conclude (idleFailure lane message)).note lane.coreId)
      | none =>
          if watched.stopEvent then some { watched with phase := .tested }
          else some (watched.stress lane)
  | .pausing lane =>
      match error with
      | some message => some (failed.conclude (idleFailure lane message))
      | none => some { watched with phase := .varying lane true }
  | .restingIdle lane =>
      match error with
      | some message => some (failed.conclude (idleFailure lane message))
      | none => some (watched.afterRest lane)
  | .idling =>
      some { failed with phase := if failed.stopEvent then .finishing else .nextCore true }
  | _ => none

/-- The variable load goes on with a segment while there is time left for one. -/
def vary (state : Control) (segment : Option ℚ) : Option Control :=
  match state.phase with
  | .varying lane loadOn =>
      match segment with
      | none => some { state with phase := .resting lane }
      | some duration =>
          if state.stopEvent then some { state with phase := .resting lane }
          else if loadOn then
            some { state with
              phase := .supervising (.segment lane)
                (state.freshBatch "variable load" false [lane] duration) }
          else some { state with phase := .pausing lane }
  | _ => none

/-- How much memory each lane gets, which may be too little. -/
def size (state : Control) (fault : Option String) : Option Control :=
  match state.phase with
  | .sizing =>
      match fault with
      | some message =>
          let failed := { state with
            results := state.plan.lanes.map fun lane : Lane =>
              { coreId := lane.coreId
                passed := false
                errorMessage := some message
                errorType := some .startup }
            phase := .ended }
          some (failed.notes (state.plan.lanes.map Lane.coreId))
      | none =>
          some { state with
            phase := .supervising .all (state.freshBatch "parallel stress" true state.plan.lanes
              state.plan.secondsPerCore) }
  | _ => none

/-- A batch on the stop event of its run. -/
def onEvent (stopEvent : Bool) (batch : Batch) : Batch :=
  { batch with sup := { batch.sup with stop := stopEvent } }

/-- The lanes of a batch that a stage changed in some way. -/
def changed (change : LaneRun → LaneRun → Bool) (batch next : Batch) : List Nat :=
  (batch.sup.runs.zip next.sup.runs).filterMap fun lanes =>
    if change lanes.1 lanes.2 then some lanes.1.lane.coreId else none

/-- The stage launched the lane. -/
def launches (before after : LaneRun) : Bool := !before.launched && after.launched

/-- The stage gave the lane a verdict, and did not launch it. -/
def judges (before after : LaneRun) : Bool :=
  !after.launched && decide (before.verdict ≠ after.verdict)

/-- A stage of the supervised batch. -/
def supervise (classes : CharClasses) (state : Control) (event : SupervisionEvent) :
    Option Control :=
  match state.phase with
  | .supervising work batch =>
      ((onEvent state.stopEvent batch).step classes event).map fun next =>
        { state with
          stopEvent := next.sup.stop
          phase := .supervising work next
          lateLaunches :=
            state.lateLaunches ++ if state.returned then changed launches batch next else []
          lateVerdicts :=
            state.lateVerdicts ++ if state.returned then changed judges batch next else [] }
  | _ => none

/-! ## The lifecycle -/

/-- The scheduler's look at its state, under the lock. -/
def readState (state : Control) : Option Control :=
  match state.phase with
  | .locked =>
      match state.lifecycle with
      | .running | .stopping => some { state with lock := none, phase := .ended }
      | .idle | .finished => some { state with lifecycle := .running, phase := .marked }
  | _ => none

/-- The run clears the stop event; `ParallelStress` begins with that. -/
def clear (state : Control) : Option Control :=
  match state.kind, state.phase with
  | .coreScheduler, .marked => some { state with stopEvent := false, phase := .cleared }
  | .parallelStress, .called => some { state with stopEvent := false, phase := .preparing }
  | _, _ => none

def takeLock (state : Control) : Option Control :=
  if state.kind = .coreScheduler ∧ state.lock = none then
    match state.phase with
    | .called => some { state with lock := some .run, phase := .locked }
    | _ => none
  else none

def releaseLock (state : Control) : Option Control :=
  match state.phase with
  | .cleared =>
      some { state with lock := none, phase := .nextCycle, cyclesLeft := state.plan.cycleCount }
  | _ => none

def setStop (state : Control) : Control :=
  { state with stopEvent := true, calls := state.calls + 1, requested := true }

def stopTakesLock (state : Control) : Option Control :=
  if state.kind = .coreScheduler ∧ state.lock = none then
    match state.calls with
    | 0 => none
    | calls + 1 => some { state with calls, lock := some (.stop false) }
  else none

def changeState (state : Control) : Option Control :=
  if state.lock = some (.stop false) then
    some { state with
      lifecycle := if state.lifecycle = .finished then .finished else .stopping
      lock := some (.stop true) }
  else none

def stopReturns (state : Control) : Option Control :=
  match state.kind with
  | .coreScheduler =>
      if state.lock = some (.stop true) then some { state with lock := none, returned := true }
      else none
  | .parallelStress =>
      match state.calls with
      | 0 => none
      | calls + 1 => some { state with calls, returned := true }

end Control

/-! ## The steps -/

inductive StopEvent where
  /-- The steps of a call of `stop`. -/
  | setStop
  | stopTakesLock
  | changeState
  | stopReturns
  /-- The steps of the run. -/
  | takeLock
  | readState
  | clear
  | releaseLock
  | proceed
  | size (fault : Option String)
  | idle (error : Option String) (tripped : Bool)
  | vary (segment : Option ℚ)
  | supervise (event : SupervisionEvent)

def Control.step (classes : CharClasses) (state : Control) : StopEvent → Option Control
  | .setStop => some state.setStop
  | .stopTakesLock => state.stopTakesLock
  | .changeState => state.changeState
  | .stopReturns => state.stopReturns
  | .takeLock => state.takeLock
  | .readState => state.readState
  | .clear => state.clear
  | .releaseLock => state.releaseLock
  | .proceed => state.proceed
  | .size fault => state.size fault
  | .idle error tripped => state.idle error tripped
  | .vary segment => state.vary segment
  | .supervise event => state.supervise classes event

/-- The worker was started, whatever its object was used for before, and no call of `stop` has
been made since. -/
def stopping (classes : CharClasses) : StepSystem Control StopEvent where
  Start state := state =
    { kind := state.kind, plan := state.plan, lifecycle := state.lifecycle,
      stopEvent := state.stopEvent }
  step := Control.step classes

/-- No stop is cleared away, and once one has returned nothing else keeps a lane from its
launch. -/
def Attentive (state : Control) : StopEvent → Prop
  | .clear => state.requested = false
  | .proceed => state.returned = true → state.phase = .preparing →
      ∀ core ∈ state.plan.cores, (state.plan.laneOf core).isSome = true
  | .size fault => state.returned = true → fault = none
  | .idle error _ => state.returned = true → ∀ lane, state.phase = .settling lane → error = none
  | .supervise event => state.returned = true → ∀ work batch,
      state.phase = .supervising work batch → (Control.onEvent state.stopEvent batch).Spared event
  | _ => True

end StopProtocol
end Engine
end CoreCycler
