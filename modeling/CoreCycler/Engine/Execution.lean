import CoreCycler.Library.Text
import Mathlib.Data.List.MinMax

/-!
# Supervised execution

Every stress run goes through one supervised loop, which polls the thermal watch, the
kernel log, the backend and the processes and leaves a verdict on each lane; every
stretch without load goes through `watchIdle`.  What each poll finds is part of a script.
The loop classes its faults itself.  `watchIdle` only returns a text, which
`classifyError` turns into a class afterwards.
-/

namespace CoreCycler
namespace Engine

open Library.Text

/-- The class of a failure. -/
inductive ErrorType
  | startup
  | thermal
  | stall
  | killed
  | mceUnattributed
  | unknown
  | mce
  | computation
  | timeout
  | crash
  | idleInstability
  | loadTransition
deriving DecidableEq, Repr

/-- Membership of a class in a list of classes is decided by way of this instance. -/
instance : LawfulBEq (Option ErrorType) := inferInstance

/-- A hardware error in the kernel log; `cpu` is -1 where the line names none. -/
structure MCEEvent where
  cpu : Int
  message : String
  corrected : Bool := false
deriving DecidableEq

/-- The verdict on a core. -/
structure StressResult where
  coreId : Nat
  passed : Bool
  errorMessage : Option String := none
  errorType : Option ErrorType := none
deriving DecidableEq

/-! ## Classing a message -/

/-- Phrases of a fault of the harness itself. -/
def startupPhrases : List String :=
  ["failed to start", "verdict unavailable", "harness error", "containment fault",
    "kernel error monitor"]

def unattributedPhrase : String := "machine check without core attribution"

def computationPhrases : List String :=
  ["rounding", "fatal", "illegal", "sumout", "mismatch", "jacobi", "verification",
    "computation"]

/-- `exited with code -\d+`. -/
def exitedBySignal (text : List Char) : Bool :=
  "0123456789".toList.any fun digit =>
    decide (("exited with code -".toList ++ [digit]) <:+: text)

/-- The class of a message in lower case. -/
def classifyText (text : List Char) : ErrorType :=
  if ∃ phrase ∈ startupPhrases, Mentions text phrase then .startup
  else if Mentions text unattributedPhrase then .mceUnattributed
  else if Mentions text "mce" ∨ Mentions text "machine check" then .mce
  else if Mentions text "temperature" ∨ Mentions text "thermal" then .thermal
  else if Mentions text "stall" then .stall
  else if ∃ phrase ∈ computationPhrases, Mentions text phrase then .computation
  else if Mentions text "timeout" then .timeout
  else if Mentions text "killed externally" then .killed
  else if Mentions text "crash" ∨ Mentions text "signal" then .crash
  else if exitedBySignal text then .crash
  else if Mentions text "idle" then .idleInstability
  else if Mentions text "variable" ∨ Mentions text "transition" then .loadTransition
  else .unknown

def classifyError (message : Option String) : ErrorType :=
  match message with
  | none => .unknown
  | some text => if text = "" then .unknown else classifyText (lower text)

/-- A temperature limit as it is printed. -/
structure Degrees where
  text : String
  ne_empty : lower text ≠ []
  numeric : ∀ digit ∈ lower text, digit ∈ "-.0123456789".toList

/-! ## Lanes -/

structure Lane where
  coreId : Nat
  /-- The CPUs under load, as they are printed. -/
  cpuList : String := ""
  /-- The CPUs whose machine checks are the lane's: all siblings of its core. -/
  mceCpus : List Int
deriving DecidableEq

structure LaneRun where
  lane : Lane
  /-- The process was started. -/
  launched : Bool := false
  /-- The process is over. -/
  exited : Bool := false
  verdict : Option StressResult := none
deriving DecidableEq

namespace LaneRun

def running (run : LaneRun) : Bool := run.verdict.isNone && run.launched && !run.exited

/-- No verdict yet, or a pass: what later evidence may still fail. -/
def unfailed (run : LaneRun) : Bool := run.verdict.all (·.passed)

end LaneRun

structure Supervisor where
  phase : String
  maxTemperature : Degrees
  stallTimeout : Nat := 30
  stopOnFirstFailure : Bool
  runs : List LaneRun
  stop : Bool := false
  /-- The events seen in this run. -/
  observed : List MCEEvent := []

namespace Supervisor

/-- Change the run of one lane. -/
def onLane (sup : Supervisor) (core : Nat) (change : LaneRun → LaneRun) : Supervisor :=
  { sup with
    runs := sup.runs.map fun run => if run.lane.coreId = core then change run else run }

/-- Leave a failure on a lane. -/
def fail (sup : Supervisor) (core : Nat) (message : String) (errorType : Option ErrorType) :
    Supervisor :=
  let failed := sup.onLane core fun run =>
    { run with
      verdict := some
        { coreId := run.lane.coreId
          passed := false
          errorMessage := some message
          errorType := some (errorType.getD (classifyError message)) } }
  { failed with stop := failed.stop || sup.stopOnFirstFailure }

/-- The lane with the least core among those that meet a condition. -/
def leastLane (sup : Supervisor) (condition : LaneRun → Bool) : Option LaneRun :=
  (sup.runs.filter condition).argmin fun run => run.lane.coreId

end Supervisor

/-! ## What a poll finds -/

/-- A reading of the thermal watch. -/
inductive Thermal
  | safe
  | exceeded
  /-- The sensor is gone. -/
  | lost
deriving DecidableEq

/-- A read of the kernel log: it fails with a text after `kernel error monitor`. -/
inductive KernelRead
  | events (events : List MCEEvent)
  | failed (detail : String)

def monitorMessage (detail : String) : String := "kernel error monitor " ++ detail

def mceMessage (phase : String) (event : MCEEvent) : String :=
  "MCE during " ++ phase ++ ": " ++ event.message

def exceededMessage (limit : Degrees) (phase : String) : String :=
  "CPU temperature exceeded " ++ limit.text ++ " C safety limit during " ++ phase

/-- A process that is over, as `_classify_completed` finds it. -/
structure Completion where
  returnCode : Int := 0
  /-- `backend.poll_errors`. -/
  liveError : Option String := none
  /-- Killed by a signal that was not ours. -/
  killedExternally : Bool := false
  /-- `backend.parse_output`. -/
  output : Bool × Option String := (true, none)
  /-- It ended by itself within the startup window. -/
  tooEarly : Bool := false

/-- One round of the polls. -/
structure Tick where
  thermal : Thermal := .safe
  mce : KernelRead := .events []
  backendErrors : Nat → Option String := fun _ => none
  /-- The lanes whose process is found to have exited. -/
  exits : Nat → Option Completion := fun _ => none
  /-- Stopping or reading out an exited process fails. -/
  teardown : Nat → Option String := fun _ => none
  containment : Nat → Option String := fun _ => none
  stalled : Nat → Bool := fun _ => false
  deadline : Bool := false

/-- The end of a run: the processes are stopped, and the log is read once more. -/
structure Closing where
  teardown : Nat → Option String := fun _ => none
  mce : KernelRead := .events []
  completions : Nat → Completion := fun _ => {}
  /-- The run ends before its time. -/
  early : Bool := false

namespace Supervisor

/-! ## The polls -/

def thermalFailed (sup : Supervisor) (reading : Thermal) (startup : Bool) :
    Bool × Supervisor :=
  match reading with
  | .safe => (false, sup)
  | _ =>
      let (message, errorType) : String × ErrorType :=
        if reading = .exceeded then
          (exceededMessage sup.maxTemperature sup.phase, .thermal)
        else if startup then
          (s!"Required CPU temperature sensor unavailable before {sup.phase} launch", .startup)
        else
          (s!"CPU temperature sensor disappeared after a thermal trip during {sup.phase}",
            .thermal)
      let failed := match sup.leastLane (·.verdict.isNone) with
        | some run => sup.fail run.lane.coreId message errorType
        | none => sup
      (true, { failed with stop := true })

/-- The lane an event is charged to. -/
def chargedLane (sup : Supervisor) (event : MCEEvent) : Option LaneRun :=
  if event.cpu = -1 then sup.leastLane LaneRun.unfailed
  else sup.runs.reverse.find? fun run => decide (event.cpu ∈ run.lane.mceCpus)

/-- The closing read outranks a fault of the harness. -/
def canOverride (run : LaneRun) (event : MCEEvent) (force : Bool) : Bool :=
  force && decide (event.cpu ≠ -1) && run.verdict.any fun verdict =>
    decide (verdict.errorType ∈
      [some ErrorType.startup, some .stall, some .killed, some .timeout])

def applyMceEvent (force : Bool) (state : Bool × Supervisor) (event : MCEEvent) :
    Bool × Supervisor :=
  match state.2.chargedLane event with
  | none => state
  | some run =>
      if run.unfailed || canOverride run event force then
        let errorType : ErrorType := if event.cpu = -1 then .mceUnattributed else .mce
        let failed := state.2.fail run.lane.coreId (mceMessage state.2.phase event) errorType
        (true, { failed with stop := failed.stop || decide (event.cpu = -1) })
      else
        state

/-- Fail every lane that has not failed yet. -/
def failUnfailed (sup : Supervisor) (message : String) (errorType : ErrorType) : Supervisor :=
  sup.runs.foldl
    (fun sup run => if run.unfailed then sup.fail run.lane.coreId message errorType else sup) sup

def applyMceEvents (sup : Supervisor) (read : KernelRead) (force : Bool) :
    Bool × Supervisor :=
  match read with
  | .failed detail =>
      (true, { sup.failUnfailed (monitorMessage detail) .startup with stop := true })
  | .events events =>
      events.foldl (applyMceEvent force) (false, { sup with observed := sup.observed ++ events })

/-- The first lane without a verdict that a poll finds at fault. -/
def firstFault (sup : Supervisor) (condition : LaneRun → Bool) (fault : Nat → Option String) :
    Option (Nat × String) :=
  sup.runs.findSome? fun run =>
    if condition run then (fault run.lane.coreId).map (run.lane.coreId, ·) else none

/-- Fail the lanes without a verdict on which the backend reports an error; only the first
when one failure is to stop the run. -/
def pollBackendErrors (sup : Supervisor) (errors : Nat → Option String) : Bool × Supervisor :=
  match sup.firstFault (·.verdict.isNone) errors with
  | some (core, message) => (sup.stopOnFirstFailure, sup.fail core message none)
  | none => (false, sup)

/-- The verdict on a process that is over; none when it was stopped before its time. -/
def classifyCompleted (core : Nat) (completion : Completion) (interrupted : Bool) :
    Option StressResult :=
  let failure (message : Option String) (errorType : Option ErrorType) : StressResult :=
    { coreId := core, passed := false, errorMessage := message, errorType }
  match completion.liveError with
  | some message => some (failure message (some (classifyError message)))
  | none =>
      if completion.killedExternally then
        some (failure
          (s!"Stress process killed externally (code {completion.returnCode}) - " ++
            "possible OOM or system issue")
          (some .killed))
      else if !completion.output.1 then
        -- An empty message has no class at all.
        let message := completion.output.2.filter (· ≠ "")
        some (failure completion.output.2 (message.map fun text => classifyError (some text)))
      else if completion.tooEarly then
        some (failure
          (s!"stress exited at startup (code {completion.returnCode}) with no work done - " ++
            "verdict unavailable")
          (some .startup))
      else if interrupted then
        none
      else
        some { coreId := core, passed := true }

/-- A process that has exited is stopped, read out and classed. -/
def closeLane (run : LaneRun) (teardown : Option String) (completion : Completion) : LaneRun :=
  match teardown with
  | some message =>
      { run with
        exited := true
        verdict := some
          { coreId := run.lane.coreId
            passed := false
            errorMessage := some message
            errorType := some .startup } }
  | none =>
      { run with
        exited := true
        verdict := classifyCompleted run.lane.coreId completion false }

/-- The lanes whose process has exited, up to the first failure that stops the run. -/
def pollExits (sup : Supervisor) (tick : Tick) : List LaneRun → Bool × Supervisor
  | [] => (false, sup)
  | run :: rest =>
      match run.verdict.isNone && run.launched, tick.exits run.lane.coreId with
      | true, some completion =>
          let teardown := tick.teardown run.lane.coreId
          let closed := closeLane run teardown completion
          let next := sup.onLane run.lane.coreId fun other =>
            if other.verdict.isNone then closeLane other teardown completion else other
          -- Only a failure to tear down sets the stop event.
          let next := { next with stop := next.stop || teardown.isSome && sup.stopOnFirstFailure }
          if closed.verdict.any (fun verdict => !verdict.passed) then
            (sup.stopOnFirstFailure, next)
          else
            pollExits next tick rest
      | _, _ => pollExits sup tick rest

def pollContainment (sup : Supervisor) (fault : Nat → Option String) : Bool × Supervisor :=
  match sup.firstFault LaneRun.running fault with
  | some (core, message) => (true, sup.fail core message (some .startup))
  | none => (false, sup)

def stallMessage (sup : Supervisor) (lane : Lane) : String :=
  s!"Stress test stalled on core {lane.coreId} " ++
    s!"(CPU usage near 0 on CPUs {lane.cpuList} for {sup.stallTimeout}s)"

def pollStalls (sup : Supervisor) (stalled : Nat → Bool) : Bool × Supervisor :=
  match sup.runs.find? fun run => run.running && stalled run.lane.coreId with
  | some run =>
      (sup.stopOnFirstFailure, sup.fail run.lane.coreId (sup.stallMessage run.lane) (some .stall))
  | none => (false, sup)

/-! ## A run -/

/-- One round of the polls; whether the loop ends with it. -/
def pollOnce (sup : Supervisor) (tick : Tick) : Bool × Supervisor :=
  let thermal := sup.thermalFailed tick.thermal false
  if thermal.1 then thermal else
  let mce := thermal.2.applyMceEvents tick.mce false
  if mce.1 then mce else
  let backend := mce.2.pollBackendErrors tick.backendErrors
  if backend.1 then backend else
  let exits := backend.2.pollExits tick backend.2.runs
  if exits.1 then exits else
  if !exits.2.runs.any LaneRun.running then (true, exits.2) else
  let containment := exits.2.pollContainment tick.containment
  if containment.1 then containment else
  let stalls := containment.2.pollStalls tick.stalled
  if stalls.1 then stalls else (tick.deadline, stalls.2)

def pollUntilDone (sup : Supervisor) : List Tick → Supervisor
  | [] => sup
  | tick :: rest =>
      if sup.stop then sup
      else
        let polled := sup.pollOnce tick
        if polled.1 then polled.2 else polled.2.pollUntilDone rest

/-- Stop a process that was started. -/
def terminateRun (sup : Supervisor) (teardown : Nat → Option String) (run : LaneRun) :
    Supervisor :=
  match run.launched, teardown run.lane.coreId with
  | true, some message => sup.fail run.lane.coreId message (some .startup)
  | _, _ => sup

/-- Class what has no verdict yet, or a pass. -/
def completeRun (closing : Closing) (interrupted : Bool) (run : LaneRun) : LaneRun :=
  if run.launched && run.unfailed then
    { run with
      verdict := classifyCompleted run.lane.coreId (closing.completions run.lane.coreId)
        (interrupted && run.verdict.isNone) }
  else
    run

def finish (sup : Supervisor) (closing : Closing) : Supervisor :=
  let interrupted := sup.stop && closing.early
  let stopped := sup.runs.foldl (terminateRun · closing.teardown) sup
  let read := (stopped.applyMceEvents closing.mce true).2
  { read with runs := read.runs.map (completeRun closing interrupted) }

/-- Start the lanes in order, up to the first that cannot be. -/
def launchAll (sup : Supervisor) (refusals : Nat → Option String) : List LaneRun → Supervisor
  | [] => sup
  | run :: rest =>
      match refusals run.lane.coreId with
      | some message => sup.fail run.lane.coreId message (some .startup)
      | none =>
          launchAll (sup.onLane run.lane.coreId fun run => { run with launched := true })
            refusals rest

end Supervisor

/-- What a supervised run meets. -/
structure RunScript where
  startThermal : Thermal := .safe
  /-- The lanes that cannot be started. -/
  refusals : Nat → Option String := fun _ => none
  ticks : List Tick := []
  closing : Closing := {}

/-- `Supervisor.run`. -/
def Supervisor.run (sup : Supervisor) (script : RunScript) : Supervisor :=
  let thermal := sup.thermalFailed script.startThermal true
  if thermal.1 then thermal.2
  else
    let launched := thermal.2.launchAll script.refusals thermal.2.runs
    let polled :=
      if launched.runs.any LaneRun.running then launched.pollUntilDone script.ticks
      else launched
    polled.finish script.closing

/-! ## Watching an idle machine -/

/-- A round of an idle watch. -/
structure IdleTick where
  finished : Bool := false
  thermal : Thermal := .safe
  mce : KernelRead := .events []

/-- Why an idle watch ends early. -/
inductive IdleStop
  | monitor (detail : String)
  | event (event : MCEEvent)
  | exceeded (limit : Degrees)

/-- The text `watch_idle` returns. -/
def IdleStop.message (phase : String) : IdleStop → String
  | monitor detail => monitorMessage detail
  | event seen => mceMessage phase seen
  | exceeded limit => exceededMessage limit phase

/-- Watch the kernel log of an idle machine; also the events seen.  The watch ends on an
event on one of its own CPUs, and on one that names no CPU. -/
def watchIdle (own : List Int) (limit : Degrees) :
    List IdleTick → Option IdleStop × List MCEEvent
  | [] => (none, [])
  | tick :: rest =>
      let thermalStop := !tick.finished && decide (tick.thermal ≠ .safe)
      match tick.mce with
      | .failed detail => (some (.monitor detail), [])
      | .events events =>
          match events.find? fun event => decide (event.cpu = -1 ∨ event.cpu ∈ own) with
          | some event => (some (.event event), events)
          | none =>
              if thermalStop then (some (.exceeded limit), events)
              else if tick.finished then (none, events)
              else
                let later := watchIdle own limit rest
                (later.1, events ++ later.2)

end Engine
end CoreCycler
