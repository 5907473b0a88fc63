import CoreCycler.Engine.Execution

/-!
# The slots and their reports

A slot is a solo test of one core, a parallel stress of several, or rapid transitions
over a set of cores.  Each strings supervised runs and idle watches together.  `SlotEnd`
keeps what ended a slot: a verdict of the supervisor, or the stop of an idle watch, which
has its class from its text only.
-/

namespace CoreCycler
namespace Engine

/-- What ends a slot. -/
inductive SlotEnd
  /-- The slot was stopped without a result. -/
  | noResult
  | verdict (result : StressResult)
  /-- An idle watch of the given phase stopped early. -/
  | idle (phase : String) (stop : IdleStop)

/-- How a slot went: what ended it, and the kernel events seen during it. -/
structure SlotRun where
  ending : SlotEnd
  observed : List MCEEvent

/-- What every slot is run with. -/
structure SlotConfig where
  maxTemperature : Degrees
  stallTimeout : Nat := 30

def SlotConfig.supervisor (config : SlotConfig) (phase : String) (stopOnFirstFailure : Bool)
    (lanes : List Lane) : Supervisor where
  phase := phase
  maxTemperature := config.maxTemperature
  stallTimeout := config.stallTimeout
  stopOnFirstFailure := stopOnFirstFailure
  runs := lanes.map fun lane => { lane }

/-- A supervised run of one lane: its verdict, and the events seen. -/
def runLane (config : SlotConfig) (phase : String) (lane : Lane) (script : RunScript) :
    Option StressResult × List MCEEvent :=
  let sup := (config.supervisor phase false [lane]).run script
  (sup.runs.head?.bind LaneRun.verdict, sup.observed)

/-! ## Solo slots -/

/-- A segment of the variable load: a burst of stress, or a pause. -/
inductive Segment
  | load (script : RunScript)
  | pause (ticks : List IdleTick)

/-- What a solo slot meets; a phase that is not configured is `none`. -/
structure SoloScript where
  settle : Option (List IdleTick) := none
  stoppedInSettle : Bool := false
  stress : RunScript := {}
  stoppedInStress : Bool := false
  variableLoad : Option (List Segment) := none
  stoppedInVariableLoad : Bool := false
  idleStability : Option (List IdleTick) := none
  stoppedInIdle : Bool := false

/-- `_run_variable_load`: what fails it, whether it was stopped, and the events seen. -/
def runVariableLoad (config : SlotConfig) (lane : Lane) :
    List Segment → Option SlotEnd × Bool × List MCEEvent
  | [] => (none, false, [])
  | .load script :: rest =>
      let burst := runLane config "variable load" lane script
      match burst.1 with
      -- Without a verdict the load was stopped, and the slot with it.
      | none => (none, true, burst.2)
      | some verdict =>
          if verdict.passed then
            let later := runVariableLoad config lane rest
            (later.1, later.2.1, burst.2 ++ later.2.2)
          else
            -- The first segment that fails is the verdict of the whole load.
            (some (.verdict verdict), false, burst.2)
  | .pause ticks :: rest =>
      let watch := watchIdle lane.mceCpus config.maxTemperature ticks
      match watch.1 with
      | some stop => (some (.idle "idle transition" stop), false, watch.2)
      | none =>
          let later := runVariableLoad config lane rest
          (later.1, later.2.1, watch.2 ++ later.2.2)

/-- An optional idle phase of a solo slot. -/
def idlePhase (config : SlotConfig) (lane : Lane) (ticks : Option (List IdleTick)) :
    Option IdleStop × List MCEEvent :=
  match ticks with
  | none => (none, [])
  | some ticks => watchIdle lane.mceCpus config.maxTemperature ticks

/-- The variable load of a solo slot, unless it is not configured or the slot was stopped. -/
def variableLoadPhase (config : SlotConfig) (lane : Lane) (script : SoloScript) :
    Option SlotEnd × Bool × List MCEEvent :=
  match script.variableLoad with
  | none => (none, false, [])
  | some segments =>
      if script.stoppedInStress then (none, false, []) else runVariableLoad config lane segments

/-- What follows the stress of a solo slot once it has passed. -/
def afterStress (config : SlotConfig) (lane : Lane) (script : SoloScript) : SlotRun :=
  let loads := variableLoadPhase config lane script
  match loads.1 with
  | some ending => { ending, observed := loads.2.2 }
  | none =>
      let stopped := script.stoppedInStress || loads.2.1 || script.stoppedInVariableLoad
      let idle := idlePhase config lane (if stopped then none else script.idleStability)
      let observed := loads.2.2 ++ idle.2
      match idle.1 with
      | some stop => { ending := .idle "idle stability" stop, observed }
      | none =>
          if (stopped || script.stoppedInIdle) &&
              (script.variableLoad.isSome || script.idleStability.isSome) then
            { ending := .noResult, observed }
          else
            { ending := .verdict { coreId := lane.coreId, passed := true }, observed }

/-- `_test_core`. -/
def testCore (config : SlotConfig) (lane : Lane) (script : SoloScript) : SlotRun :=
  let settle := idlePhase config lane script.settle
  match settle.1 with
  | some stop => { ending := .idle "CO settle" stop, observed := settle.2 }
  | none =>
      if script.settle.isSome && script.stoppedInSettle then
        { ending := .noResult, observed := settle.2 }
      else
        let stress := runLane config s!"stress (CPU {lane.cpuList})" lane script.stress
        match stress.1 with
        | none => { ending := .noResult, observed := settle.2 ++ stress.2 }
        | some verdict =>
            if verdict.passed then
              let later := afterStress config lane script
              { later with observed := settle.2 ++ stress.2 ++ later.observed }
            else
              { ending := .verdict verdict, observed := settle.2 ++ stress.2 }

/-! ## Rapid transitions -/

/-- A cycle of load and idle; the last one may have no idle phase left. -/
structure Cycle where
  load : RunScript := {}
  stoppedInLoad : Bool := false
  idle : Option (List IdleTick) := none

def rapidPhase (cycle : Nat) : String :=
  "idle phase of rapid transition cycle " ++ toString cycle

/-- The cycles from number `cycle` on; `stopped` tells whether the load was stopped before
its time was up. -/
def runCycles (config : SlotConfig) (lane : Lane) (stopped : Bool) :
    Nat → List Cycle → SlotRun
  | _, [] =>
      { ending := .verdict <|
          if stopped then
            { coreId := lane.coreId
              passed := false
              errorMessage := some "Rapid transitions stopped"
              errorType := some .killed }
          else { coreId := lane.coreId, passed := true }
        observed := [] }
  | number, cycle :: rest =>
      -- Load and idle take turns, and either may end the slot.
      let load := runLane config "rapid transition" lane cycle.load
      let failure (message : String) (errorType : ErrorType) : SlotRun :=
        { ending := .verdict
            { coreId := lane.coreId
              passed := false
              errorMessage := some message
              errorType := some errorType }
          observed := load.2 }
      match load.1 with
      | some verdict =>
          if !verdict.passed then { ending := .verdict verdict, observed := load.2 }
          else if cycle.stoppedInLoad then failure "Rapid transitions stopped" .killed
          else
            let idle := idlePhase config lane cycle.idle
            match idle.1 with
            | some stop =>
                { ending := .idle (rapidPhase number) stop, observed := load.2 ++ idle.2 }
            | none =>
                let later := runCycles config lane stopped (number + 1) rest
                { later with observed := load.2 ++ idle.2 ++ later.observed }
      | none =>
          if cycle.stoppedInLoad then failure "Rapid transitions stopped" .killed
          else failure "Rapid transition verdict unavailable" .startup

/-! ## Reports -/

/-- What a worker reports, with the events it saw. -/
structure Report where
  core : Nat
  passed : Bool
  errorMessage : Option String := none
  errorType : Option ErrorType := none
  observed : List MCEEvent := []

/-- A worker without a result reports that its slot could not run. -/
def noResultReport (core : Nat) (observed : List MCEEvent) : Report :=
  { core, passed := false, errorMessage := some "No result returned", errorType := some .startup,
    observed }

def StressResult.report (result : StressResult) (observed : List MCEEvent) : Report :=
  { core := result.coreId
    passed := result.passed
    errorMessage := result.errorMessage
    errorType := result.errorType
    observed }

/-- What is reported of a slot of one lane. -/
def SlotRun.report (run : SlotRun) (core : Nat) : Report :=
  match run.ending with
  | .noResult => noResultReport core run.observed
  | .verdict result => result.report run.observed
  | .idle phase stop =>
      { core
        passed := false
        errorMessage := some (stop.message phase)
        errorType := some (classifyError (stop.message phase))
        observed := run.observed }

/-- A failure on any core of the batch outranks the primary's pass. -/
def pickReport (results : List StressResult) (primary : Nat) : Option StressResult :=
  let report := results.find? (·.coreId = primary)
  if report.all (·.passed) then
    ((results.filter fun result => !result.passed).argmin (·.coreId)).or report
  else
    report

/-- `ParallelStress.run`, as its worker reports it. -/
def parallelReport (config : SlotConfig) (primary : Nat) (lanes : List Lane)
    (script : RunScript) : Report :=
  let sup := (config.supervisor "parallel stress" true lanes).run script
  match pickReport (sup.runs.filterMap LaneRun.verdict) primary with
  | some result => result.report sup.observed
  | none => noResultReport primary sup.observed

/-- A slot outside a hunt, with all it meets. -/
inductive Slot
  | solo (lane : Lane) (script : SoloScript)
  | parallel (primary : Nat) (lanes : List Lane) (script : RunScript)
  /-- Rapid transitions of one lane over several cores. -/
  | rapid (lane : Lane) (stopped : Bool) (cycles : List Cycle)
  /-- The harness raises, or refuses the slot before any lane is built. -/
  | raised (core : Nat) (message : String)

/-- How a slot ends whose report rests on one lane. -/
def Slot.run (config : SlotConfig) : Slot → Option SlotRun
  | solo lane script => some (testCore config lane script)
  | rapid lane stopped cycles => some (runCycles config lane stopped 1 cycles)
  | _ => none

/-- What the worker of a slot reports. -/
def Slot.report (config : SlotConfig) : Slot → Report
  | solo lane script => (testCore config lane script).report lane.coreId
  | parallel primary lanes script => parallelReport config primary lanes script
  | rapid lane stopped cycles => (runCycles config lane stopped 1 cycles).report lane.coreId
  | raised core message =>
      { core, passed := false, errorMessage := some message, errorType := some .startup }

end Engine
end CoreCycler
