import CoreCycler.Engine.Signatures
import CoreCycler.Library.StepSystem

/-!
# A supervised batch, step by step

`Supervisor.run` with the processes in view: what a poll or a teardown observes of a process,
the signals that were sent to it, and its return code, from which a pass is inferred
afterwards.  An event is one stage of the loop or of the teardown of one lane, with what it
observes.  Between any two of them time may pass, a stop may be requested, and another thread
may be stopping a lane.
-/

namespace CoreCycler
namespace Engine

open Library Library.Text

def errorPollInterval : ℚ := 5
def startupWindowSeconds : ℚ := 2

def sigkill : Int := 9
def sigterm : Int := 15

/-! ## Ending a process -/

/-- What a teardown came to. -/
structure TerminationOutcome where
  sentSignals : List Int := []
  groupGone : Bool := true
  scopeGone : Bool := true
  stoppedRunning : Bool := false
deriving DecidableEq

def TerminationOutcome.allGone (outcome : TerminationOutcome) : Bool :=
  outcome.groupGone && outcome.scopeGone

/-- What `kill_process_group` observes, in order. -/
structure GroupProbe where
  /-- The leader is over before any signal. -/
  exited : Bool := false
  /-- Nothing of the group is left before any signal. -/
  gone : Bool := false
  /-- SIGTERM still found the group. -/
  termDelivered : Bool := true
  /-- The group is gone in time after SIGTERM. -/
  goneAfterTerm : Bool := true
  /-- SIGKILL still found the group. -/
  killDelivered : Bool := true
  /-- The group is gone in time after SIGKILL. -/
  goneAfterKill : Bool := true

def killProcessGroup (probe : GroupProbe) : TerminationOutcome :=
  let termed := if !probe.gone && probe.termDelivered then [sigterm] else []
  let sent := if !probe.goneAfterTerm && probe.killDelivered then termed ++ [sigkill] else termed
  { sentSignals := sent
    groupGone := probe.goneAfterTerm || probe.goneAfterKill
    stoppedRunning := !probe.exited && decide (sigterm ∈ sent) }

/-- What `_terminate_run` meets. -/
structure Teardown where
  /-- The duty-cycle driver does not stop. -/
  dutyFault : Option String := none
  /-- A signal or a wait raises. -/
  fault : Option String := none
  probe : GroupProbe := {}
  /-- The scope is gone, where there is one. -/
  scopeGone : Bool := true
  /-- The return code of the leader, where it is over by then. -/
  returnCode : Option Int := some (-15)

/-- Reading the captured output back. -/
inductive Capture where
  | read (stdout stderr : String)
  | failed (exc : String)

/-- Starting a lane. -/
inductive Launch where
  | captureFailed (exc : String)
  | refused (exc : String)
  | started (contained dutyDriver : Bool)
  | dutyFailed (contained dutyDriver : Bool) (exc : String)

/-- The process of a lane. -/
structure Process where
  returnCode : Option Int := none
  dutyDriver : Bool := false
  /-- It runs in a scope of its own. -/
  contained : Bool := false
  stdout : String := ""
  stderr : String := ""
  termination : Option TerminationOutcome := none
  /-- How long it ran to its verdict. -/
  runtime : ℚ := 0
  /-- Kept for the statements: the leader was running when its teardown began. -/
  runningAtStop : Bool := false
  /-- Kept for the statements: when that was. -/
  stoppedAt : ℚ := 0

namespace Process

/-- Nothing of it is left. -/
def torn (process : Process) : Bool := process.termination.any (·.allGone)

/-- The return code that is classed: a clean exit on our SIGTERM is still our stop. -/
def effectiveReturnCode (process : Process) : Int :=
  let returnCode := process.returnCode.getD 0
  if returnCode = 0 ∧ process.termination.any (·.stoppedRunning) = true then -sigterm
  else returnCode

def terminationMatchesReturncode (process : Process) (returnCode : Int) : Bool :=
  process.termination.any fun outcome =>
    outcome.sentSignals.any fun sent =>
      decide (returnCode = -sent ∨ returnCode = 128 + sent)

end Process

/-! ## The batch -/

/-- Where a run stands: the lanes a loop has left are named by their cores. -/
inductive Phase where
  | starting
  | launching (rest : List Nat)
  | entering
  | looping
  | readingThermal
  | readingKernel
  | readingErrors
  | pollingExits (rest : List Nat)
  | stoppingExited (core : Nat) (rest : List Nat)
  | drainingExited (core : Nat) (rest : List Nat)
  | classingExited (core : Nat) (rest : List Nat)
  | checkingRunning
  | pollingContainment
  | pollingStalls
  | checkingDeadline
  | ending
  | terminating (rest : List Nat)
  | draining (core : Nat) (rest : List Nat)
  | closing
  | classing (rest : List Nat)
  | done
deriving DecidableEq

structure Batch where
  sup : Supervisor
  backend : Backend
  duration : ℚ
  processes : Nat → Process := fun _ => {}
  phase : Phase := .starting
  /-- The time since the start. -/
  clock : ℚ := 0
  now : ℚ := 0
  lastErrorPoll : ℚ := -errorPollInterval
  elapsed : ℚ := 0
  interrupted : Bool := false
  /-- Kept for the statements: the lanes whose backend reported an error. -/
  reported : List Nat := []
  /-- Kept for the statements: the lanes that a poll or the teardown failed. -/
  charged : List Nat := []

namespace Batch

def cores (batch : Batch) : List Nat := batch.sup.runs.map fun run => run.lane.coreId

/-- Some lane of the core meets a condition. -/
def has (batch : Batch) (core : Nat) (condition : LaneRun → Bool) : Bool :=
  batch.sup.runs.any fun run => decide (run.lane.coreId = core) && condition run

def onProcess (batch : Batch) (core : Nat) (change : Process → Process) : Batch :=
  { batch with
    processes := fun other =>
      if other = core then change (batch.processes other) else batch.processes other }

/-- The lanes as a poll or a teardown leaves them; those it failed are noted. -/
def charge (batch : Batch) (sup : Supervisor) : Batch :=
  { batch with
    sup
    charged := batch.charged ++
      (sup.runs.filter fun run => !run.unfailed && batch.has run.lane.coreId LaneRun.unfailed).map
        fun run => run.lane.coreId }

def fail (batch : Batch) (core : Nat) (message : String) : Batch :=
  batch.charge (batch.sup.fail core message (some .startup))

/-! ## The stages -/

def stopDutyDriver (batch : Batch) (core : Nat) (fault : Option String) : Batch :=
  if (batch.processes core).dutyDriver then
    let stopped := batch.onProcess core fun process => { process with dutyDriver := false }
    match fault with
    | none => stopped
    | some exc => stopped.fail core s!"Failed to stop duty-cycle driver: {exc}"
  else
    batch

/-- A lane of the core was started. -/
def launched (batch : Batch) (core : Nat) : Bool := batch.has core (·.launched)

/-- The process as a teardown without a fault leaves it. -/
def terminated (batch : Batch) (teardown : Teardown) (process : Process) : Process :=
  let exited := teardown.probe.exited || process.returnCode.isSome
  { process with
    returnCode := process.returnCode <|> teardown.returnCode
    termination := some
      { killProcessGroup { teardown.probe with exited } with
        scopeGone := !process.contained || teardown.scopeGone }
    runningAtStop := !exited
    stoppedAt := batch.clock }

def stoppedMessage (exc : String) : String := s!"Failed to stop stress test: {exc}"

/-- Stop the process of a lane, unless nothing of it is left. -/
def terminateRun (batch : Batch) (core : Nat) (teardown : Teardown) : Batch :=
  let batch := batch.stopDutyDriver core teardown.dutyFault
  if !batch.launched core || (batch.processes core).torn then
    batch
  else
    match teardown.fault with
    | some exc => batch.fail core (stoppedMessage exc)
    | none =>
        let stopped := batch.onProcess core (batch.terminated teardown)
        let process := stopped.processes core
        let stopped := { stopped with
          sup := stopped.sup.onLane core fun run =>
            { run with exited := run.exited || process.returnCode.isSome } }
        if process.torn && process.returnCode.isSome then stopped
        else
          stopped.fail core
            (stoppedMessage "stress process group or containment scope remains alive")

/-- Read the captured output back; a lane that has failed keeps its verdict. -/
def drain (batch : Batch) (core : Nat) (capture : Capture) : Batch :=
  match capture with
  | .read stdout stderr => batch.onProcess core fun process => { process with stdout, stderr }
  | .failed exc =>
      if batch.has core LaneRun.unfailed then
        batch.fail core s!"Captured stress output unavailable: {exc}"
      else
        batch

variable (classes : CharClasses)

/-- What `_classify_completed` goes by. -/
def completion (batch : Batch) (core : Nat) (results : ResultsFile) (elapsed : ℚ) : Completion :=
  let process := batch.processes core
  let returnCode := process.effectiveReturnCode
  { returnCode
    liveError := (pollErrors classes batch.backend results).bind fun finding => finding.result.2
    killedExternally := decide (returnCode ∈ killedByUsCodes) &&
      !process.terminationMatchesReturncode returnCode
    output := (parseOutput classes batch.backend process.stdout process.stderr returnCode).result
    tooEarly := decide (returnCode ∉ killedByUsCodes ∧ elapsed < startupWindowSeconds) }

/-- Class the process of a lane that is over. -/
def classify (batch : Batch) (core : Nat) (results : ResultsFile) (elapsed : ℚ)
    (interrupted : Bool) : Batch :=
  let completion := batch.completion classes core results elapsed
  let classed := batch.onProcess core fun process => { process with runtime := elapsed }
  { classed with
    sup := batch.sup.onLane core fun run =>
      { run with verdict := Supervisor.classifyCompleted core completion interrupted }
    reported :=
      if completion.liveError.isSome || !completion.output.1 then core :: batch.reported
      else batch.reported }

def launch (batch : Batch) (core : Nat) (rest : List Nat) (outcome : Launch) : Batch :=
  let start (contained dutyDriver : Bool) : Batch :=
    let started := batch.onProcess core fun process => { process with contained, dutyDriver }
    { started with sup := started.sup.onLane core fun run => { run with launched := true } }
  match outcome with
  | .captureFailed exc =>
      { batch.fail core s!"Failed to start stress output capture: {exc}" with phase := .entering }
  | .refused exc =>
      { batch.fail core s!"Failed to start stress test: {exc}" with phase := .entering }
  | .started contained dutyDriver =>
      if batch.sup.stop then { batch with phase := .entering }
      else { start contained dutyDriver with phase := .launching rest }
  | .dutyFailed contained dutyDriver exc =>
      if batch.sup.stop then { batch with phase := .entering }
      else
        { (start contained dutyDriver).fail core s!"Failed to start stress test: {exc}" with
          phase := .entering }

/-- `_poll_backend_errors`, when it is due. -/
def readErrors (batch : Batch) (results : Nat → ResultsFile) : Batch :=
  let now := batch.clock
  if now - batch.lastErrorPoll ≥ errorPollInterval then
    let errors (core : Nat) : Option String :=
      (pollErrors classes batch.backend (results core)).bind fun finding => finding.result.2
    let (ends, sup) := batch.sup.pollBackendErrors errors
    let found := (batch.sup.firstFault (·.verdict.isNone) errors).map Prod.fst
    { batch.charge sup with
      now
      lastErrorPoll := now
      reported := found.toList ++ batch.reported
      phase := if ends then .ending else .pollingExits batch.cores }
  else
    { batch with now, phase := .pollingExits batch.cores }

/-- `_poll_process` for the next lane. -/
def pollExit (batch : Batch) (core : Nat) (rest : List Nat) (exit : Option Int)
    (dutyFault : Option String) : Batch :=
  if batch.has core fun run => run.verdict.isNone && run.launched then
    match (batch.processes core).returnCode <|> exit with
    | none => { batch with phase := .pollingExits rest }
    | some returnCode =>
        let stopped := batch.stopDutyDriver core dutyFault
        let polled := stopped.onProcess core fun process =>
          { process with returnCode := some returnCode }
        { polled with
          sup := polled.sup.onLane core fun run => { run with exited := true }
          phase := .stoppingExited core rest }
  else
    { batch with phase := .pollingExits rest }

/-- Class the exited process of a lane that has no verdict; a failure ends the poll. -/
def classifyExited (batch : Batch) (core : Nat) (rest : List Nat) (results : ResultsFile) :
    Batch :=
  let classed :=
    if batch.has core (·.verdict.isNone) then
      batch.classify classes core results batch.now false
    else batch
  let next : Phase :=
    if classed.has core LaneRun.unfailed then .pollingExits rest
    else if batch.sup.stopOnFirstFailure then .ending
    else .checkingRunning
  { classed with phase := next }

/-- Class a lane at the end, unless it has failed. -/
def classifyLane (batch : Batch) (core : Nat) (results : ResultsFile) : Batch :=
  if batch.has core fun run => run.launched && run.unfailed then
    let passed := batch.has core (·.verdict.isSome)
    let elapsed := if passed then (batch.processes core).runtime else batch.elapsed
    batch.classify classes core results elapsed (batch.interrupted && !passed)
  else
    batch

end Batch

/-! ## The steps -/

/-- One stage of a run, or what happens beside it. -/
inductive SupervisionEvent where
  | wait (seconds : ℚ)
  | requestStop
  /-- `force_teardown` reaches a lane. -/
  | forceTeardown (core : Nat) (teardown : Teardown)
  | checkThermal (reading : Thermal)
  | launch (outcome : Launch)
  | readKernel (read : KernelRead)
  | readErrors (results : Nat → ResultsFile)
  | pollExit (exit : Option Int) (dutyFault : Option String)
  | pollContainment (fault : Nat → Option String)
  | pollStalls (stalled : Nat → Bool)
  | terminate (teardown : Teardown)
  | drain (capture : Capture)
  | classify (results : ResultsFile)
  /-- A stage that only decides where to go on. -/
  | proceed

namespace Batch

/-- The stages without an observation. -/
def proceed (batch : Batch) : Option Batch :=
  match batch.phase with
  | .launching [] => some { batch with phase := .entering }
  | .entering =>
      some { batch with
        phase := if batch.sup.runs.any LaneRun.running then .looping else .ending }
  | .looping => some { batch with phase := if batch.sup.stop then .ending else .readingThermal }
  | .pollingExits [] => some { batch with phase := .checkingRunning }
  | .checkingRunning =>
      some { batch with
        phase := if batch.sup.runs.any LaneRun.running then .pollingContainment else .ending }
  | .checkingDeadline =>
      some { batch with phase := if batch.duration ≤ batch.now then .ending else .looping }
  | .ending =>
      some { batch with
        elapsed := batch.clock
        interrupted := batch.sup.stop && decide (batch.clock < batch.duration)
        phase := .terminating batch.cores }
  | .terminating [] => some { batch with phase := .closing }
  | .classing [] => some { batch with phase := .done }
  | _ => none

variable (classes : CharClasses)

def step (batch : Batch) : SupervisionEvent → Option Batch
  | .wait seconds => if 0 ≤ seconds then some { batch with clock := batch.clock + seconds } else none
  -- A stop is requested by whoever holds the supervisor, in any phase.
  | .requestStop => some { batch with sup := { batch.sup with stop := true } }
  | .forceTeardown core teardown =>
      if batch.phase = .done then none
      else
        some (terminateRun { batch with sup := { batch.sup with stop := true } } core teardown)
  | .checkThermal reading =>
      match batch.phase with
      -- No lane runs yet, so a hot machine fails them all and ends the batch.
      | .starting =>
          let (failed, sup) := batch.sup.thermalFailed reading true
          some { batch.charge sup with
            phase := if failed then .done else .launching batch.cores }
      | .readingThermal =>
          let (failed, sup) := batch.sup.thermalFailed reading false
          some { batch.charge sup with phase := if failed then .ending else .readingKernel }
      | _ => none
  | .launch outcome =>
      match batch.phase with
      | .launching (core :: rest) => some (batch.launch core rest outcome)
      | _ => none
  | .readKernel read =>
      match batch.phase with
      | .readingKernel =>
          let (hit, sup) := batch.sup.applyMceEvents read false
          some { batch.charge sup with phase := if hit then .ending else .readingErrors }
      -- The journal is read once more behind the last process, before any verdict.
      | .closing =>
          some { batch.charge (batch.sup.applyMceEvents read true).2 with
            phase := .classing batch.cores }
      | _ => none
  | .readErrors results =>
      match batch.phase with
      | .readingErrors => some (batch.readErrors classes results)
      | _ => none
  | .pollExit exit dutyFault =>
      match batch.phase with
      | .pollingExits (core :: rest) => some (batch.pollExit core rest exit dutyFault)
      | _ => none
  | .pollContainment fault =>
      match batch.phase with
      | .pollingContainment =>
          let (ends, sup) := batch.sup.pollContainment fault
          some { batch.charge sup with phase := if ends then .ending else .pollingStalls }
      | _ => none
  | .pollStalls stalled =>
      match batch.phase with
      | .pollingStalls =>
          let (ends, sup) := batch.sup.pollStalls stalled
          some { batch.charge sup with phase := if ends then .ending else .checkingDeadline }
      | _ => none
  | .terminate teardown =>
      match batch.phase with
      | .stoppingExited core rest =>
          some { batch.terminateRun core teardown with phase := .drainingExited core rest }
      | .terminating (core :: rest) =>
          some { batch.terminateRun core teardown with phase := .draining core rest }
      | _ => none
  | .drain capture =>
      match batch.phase with
      | .drainingExited core rest =>
          some { batch.drain core capture with phase := .classingExited core rest }
      | .draining core rest =>
          -- Lanes behind a failed launch have no process to read from.
          let drained := if batch.launched core then batch.drain core capture else batch
          some { drained with phase := .terminating rest }
      | _ => none
  | .classify results =>
      match batch.phase with
      | .classingExited core rest => some (batch.classifyExited classes core rest results)
      | .classing (core :: rest) =>
          some { batch.classifyLane classes core results with phase := .classing rest }
      | _ => none
  | .proceed => batch.proceed

/-! ## What a step can do -/

/-- Where the run goes on without observing anything. -/
inductive Onset (batch : Batch) : Batch → Prop
  | enter (hphase : batch.phase = .launching []) : Onset batch { batch with phase := .entering }
  | loop (hphase : batch.phase = .entering) :
      Onset batch { batch with
        phase := if batch.sup.runs.any LaneRun.running then .looping else .ending }
  | poll (hphase : batch.phase = .looping) :
      Onset batch { batch with phase := if batch.sup.stop then .ending else .readingThermal }
  | exitsPolled (hphase : batch.phase = .pollingExits []) :
      Onset batch { batch with phase := .checkingRunning }
  | running (hphase : batch.phase = .checkingRunning) :
      Onset batch { batch with
        phase := if batch.sup.runs.any LaneRun.running then .pollingContainment else .ending }
  | deadline (hphase : batch.phase = .checkingDeadline) :
      Onset batch { batch with
        phase := if batch.duration ≤ batch.now then .ending else .looping }
  | ending (hphase : batch.phase = .ending) :
      Onset batch { batch with
        elapsed := batch.clock
        interrupted := batch.sup.stop && decide (batch.clock < batch.duration)
        phase := .terminating batch.cores }
  | terminated (hphase : batch.phase = .terminating []) : Onset batch { batch with phase := .closing }
  | classed (hphase : batch.phase = .classing []) : Onset batch { batch with phase := .done }

/-- What an event does, by the stage that it finds. -/
inductive Stage (batch : Batch) : SupervisionEvent → Batch → Prop
  | wait (seconds : ℚ) (hforward : 0 ≤ seconds) :
      Stage batch (.wait seconds) { batch with clock := batch.clock + seconds }
  | requestStop : Stage batch .requestStop { batch with sup := { batch.sup with stop := true } }
  | forceTeardown (core : Nat) (teardown : Teardown) (hopen : batch.phase ≠ .done) :
      Stage batch (.forceTeardown core teardown)
        (terminateRun { batch with sup := { batch.sup with stop := true } } core teardown)
  | checkStart (reading : Thermal) (hphase : batch.phase = .starting) :
      Stage batch (.checkThermal reading)
        { batch.charge (batch.sup.thermalFailed reading true).2 with
          phase := if (batch.sup.thermalFailed reading true).1 then .done
            else .launching batch.cores }
  | readThermal (reading : Thermal) (hphase : batch.phase = .readingThermal) :
      Stage batch (.checkThermal reading)
        { batch.charge (batch.sup.thermalFailed reading false).2 with
          phase := if (batch.sup.thermalFailed reading false).1 then .ending else .readingKernel }
  | launch (core : Nat) (rest : List Nat) (outcome : Launch)
      (hphase : batch.phase = .launching (core :: rest)) :
      Stage batch (.launch outcome) (batch.launch core rest outcome)
  | readKernel (read : KernelRead) (hphase : batch.phase = .readingKernel) :
      Stage batch (.readKernel read)
        { batch.charge (batch.sup.applyMceEvents read false).2 with
          phase := if (batch.sup.applyMceEvents read false).1 then .ending else .readingErrors }
  | closeKernel (read : KernelRead) (hphase : batch.phase = .closing) :
      Stage batch (.readKernel read)
        { batch.charge (batch.sup.applyMceEvents read true).2 with phase := .classing batch.cores }
  | readErrors (results : Nat → ResultsFile) (hphase : batch.phase = .readingErrors) :
      Stage batch (.readErrors results) (batch.readErrors classes results)
  | pollExit (core : Nat) (rest : List Nat) (exit : Option Int) (dutyFault : Option String)
      (hphase : batch.phase = .pollingExits (core :: rest)) :
      Stage batch (.pollExit exit dutyFault) (batch.pollExit core rest exit dutyFault)
  | pollContainment (fault : Nat → Option String) (hphase : batch.phase = .pollingContainment) :
      Stage batch (.pollContainment fault)
        { batch.charge (batch.sup.pollContainment fault).2 with
          phase := if (batch.sup.pollContainment fault).1 then .ending else .pollingStalls }
  | pollStalls (stalled : Nat → Bool) (hphase : batch.phase = .pollingStalls) :
      Stage batch (.pollStalls stalled)
        { batch.charge (batch.sup.pollStalls stalled).2 with
          phase := if (batch.sup.pollStalls stalled).1 then .ending else .checkingDeadline }
  | stopExited (core : Nat) (rest : List Nat) (teardown : Teardown)
      (hphase : batch.phase = .stoppingExited core rest) :
      Stage batch (.terminate teardown)
        { batch.terminateRun core teardown with phase := .drainingExited core rest }
  | stopLane (core : Nat) (rest : List Nat) (teardown : Teardown)
      (hphase : batch.phase = .terminating (core :: rest)) :
      Stage batch (.terminate teardown)
        { batch.terminateRun core teardown with phase := .draining core rest }
  | drainExited (core : Nat) (rest : List Nat) (capture : Capture)
      (hphase : batch.phase = .drainingExited core rest) :
      Stage batch (.drain capture)
        { batch.drain core capture with phase := .classingExited core rest }
  | drainLane (core : Nat) (rest : List Nat) (capture : Capture)
      (hphase : batch.phase = .draining core rest) :
      Stage batch (.drain capture)
        { (if batch.launched core then batch.drain core capture else batch) with
          phase := .terminating rest }
  | classifyExited (core : Nat) (rest : List Nat) (results : ResultsFile)
      (hphase : batch.phase = .classingExited core rest) :
      Stage batch (.classify results) (batch.classifyExited classes core rest results)
  | classifyLane (core : Nat) (rest : List Nat) (results : ResultsFile)
      (hphase : batch.phase = .classing (core :: rest)) :
      Stage batch (.classify results)
        { batch.classifyLane classes core results with phase := .classing rest }
  | proceed {next : Batch} (honset : Onset batch next) : Stage batch .proceed next

variable {classes} {batch next : Batch} {event : SupervisionEvent}

theorem onset_of_proceed (hproceed : batch.proceed = some next) : Onset batch next := by
  unfold proceed at hproceed
  split at hproceed <;> cases hproceed
  case h_1 hphase => exact .enter hphase
  case h_2 hphase => exact .loop hphase
  case h_3 hphase => exact .poll hphase
  case h_4 hphase => exact .exitsPolled hphase
  case h_5 hphase => exact .running hphase
  case h_6 hphase => exact .deadline hphase
  case h_7 hphase => exact .ending hphase
  case h_8 hphase => exact .terminated hphase
  case h_9 hphase => exact .classed hphase

/-- **Every step is a stage**: the steps are taken apart here, once for all invariants. -/
theorem stage_of_step (hstep : batch.step classes event = some next) :
    Stage classes batch event next := by
  cases event with
  | requestStop =>
      cases hstep
      exact .requestStop
  | proceed => exact .proceed (onset_of_proceed hstep)
  | wait seconds =>
      obtain ⟨hforward, hnext⟩ := Option.ite_none_right_eq_some.mp hstep
      cases hnext
      exact .wait seconds hforward
  | forceTeardown core teardown =>
      obtain ⟨hopen, hnext⟩ := Option.ite_none_left_eq_some.mp hstep
      cases hnext
      exact .forceTeardown core teardown hopen
  | checkThermal reading =>
      rw [step] at hstep
      split at hstep <;> cases hstep
      · exact .checkStart reading ‹_›
      · exact .readThermal reading ‹_›
  | launch outcome =>
      rw [step] at hstep
      split at hstep <;> cases hstep
      exact .launch _ _ outcome ‹_›
  | readKernel read =>
      rw [step] at hstep
      split at hstep <;> cases hstep
      · exact .readKernel read ‹_›
      · exact .closeKernel read ‹_›
  | readErrors results =>
      rw [step] at hstep
      split at hstep <;> cases hstep
      exact .readErrors results ‹_›
  | pollExit exit dutyFault =>
      rw [step] at hstep
      split at hstep <;> cases hstep
      exact .pollExit _ _ exit dutyFault ‹_›
  | pollContainment fault =>
      rw [step] at hstep
      split at hstep <;> cases hstep
      exact .pollContainment fault ‹_›
  | pollStalls stalled =>
      rw [step] at hstep
      split at hstep <;> cases hstep
      exact .pollStalls stalled ‹_›
  | terminate teardown =>
      rw [step] at hstep
      split at hstep <;> cases hstep
      · exact .stopExited _ _ teardown ‹_›
      · exact .stopLane _ _ teardown ‹_›
  | drain capture =>
      rw [step] at hstep
      split at hstep <;> cases hstep
      · exact .drainExited _ _ capture ‹_›
      · exact .drainLane _ _ capture ‹_›
  | classify results =>
      rw [step] at hstep
      split at hstep <;> cases hstep
      · exact .classifyExited _ _ results ‹_›
      · exact .classifyLane _ _ results ‹_›

/-- A batch as the callers of the supervisor build it: lanes of different cores, which share no
CPU, and more than one of them only if the first failure stops them all. -/
structure Fresh (batch : Batch) : Prop where
  distinct : batch.cores.Nodup
  disjoint : ∀ run ∈ batch.sup.runs, ∀ other ∈ batch.sup.runs, ∀ cpu ∈ run.lane.mceCpus,
    cpu ∈ other.lane.mceCpus → run.lane = other.lane
  numbered : ∀ run ∈ batch.sup.runs, ∀ cpu ∈ run.lane.mceCpus, 0 ≤ cpu
  alone : batch.sup.stopOnFirstFailure = false → batch.sup.runs.length ≤ 1
  unlaunched : ∀ run ∈ batch.sup.runs, run = { lane := run.lane }
  unobserved : batch.sup.observed = []
  initial : batch = { sup := batch.sup, backend := batch.backend, duration := batch.duration }

end Batch

/-- The runs of a supervised batch. -/
def supervision (classes : CharClasses) : StepSystem Batch SupervisionEvent where
  Start := Batch.Fresh
  step := Batch.step classes

end Engine
end CoreCycler
