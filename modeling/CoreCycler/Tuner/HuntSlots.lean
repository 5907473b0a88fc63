import CoreCycler.Library.EventLoop
import CoreCycler.Library.Rounding
import CoreCycler.Tuner.BisectSearch
import CoreCycler.Tuner.UnnamedEvidence
import Mathlib.Data.Rat.Floor

/-!
# The slots of a hunt

The engine puts the probes of a hunt to the machine: a probe is a series of launches, the
hunt is written to the session row before each of them, and a launch is armed for as long as
its worker runs.  `huntProgram` is the engine as an event loop, as far as a hunt is concerned.
What the search does once a hunt is over is not part of it.
-/

namespace CoreCycler
namespace Tuner

open Bisect Engine Library.EventLoop
open Library.Rounding (binary64)
open UnnamedEvidence (foreignMceByCore lacksVerdict)

/-! ## How long a probe runs -/

namespace Bisect

/-- How long a probe runs before a survival counts as clean; `pow` is that of the platform. -/
def probeSeconds (pow : ℚ → Nat → ℚ) (state : HuntState) (base : Int)
    (mttfMultiplier levelMultiplier : ℚ) (onsetSeconds : Int) : Int :=
  let observed := state.observedFailureTime
  let timed := binary64.round (observed * mttfMultiplier)
  let budget := if observed ≤ onsetSeconds then max (binary64.round base) timed else timed
  max 1 ⌊binary64.round (budget * pow levelMultiplier state.level)⌋

/-- Split a probe budget into the seconds of a launch and the number of launches. -/
def onsetLaunches (state : HuntState) (budget onsetSeconds minLaunch : Int)
    (mttfMultiplier : ℚ) : Int × Int :=
  let observed := state.observedFailureTime
  if ¬ (0 < observed ∧ observed ≤ onsetSeconds) then (budget, 1)
  else
    let launch := min budget (max minLaunch ⌈binary64.round (observed * mttfMultiplier)⌉)
    (launch, ⌈binary64.round ((budget : ℚ) / launch)⌉)

end Bisect

/-- What a hunt is run with. -/
structure HuntContext where
  config : TunerConfig
  valid : config.Valid
  /-- The cores of the session. -/
  coreIds : List CoreId
  /-- The core of a logical CPU. -/
  cpuToCore : Int → Option CoreId
  /-- The power function of the platform's floating-point numbers. -/
  pow : ℚ → Nat → ℚ

/-- The seconds of a launch and the number of launches of the probe in flight. -/
def launchSeries (context : HuntContext) (hunt : HuntState) : Int × Int :=
  let config := context.config
  -- A replay longer than the floor keeps its length.
  let base := match hunt.workload.bind (·.durationSeconds) with
    | some duration => max config.probeBaseSeconds duration
    | none => config.probeBaseSeconds
  let budget := probeSeconds context.pow hunt base config.probeMttfMultiplier
    config.probeLevelMultiplier config.onsetFailureSeconds
  onsetLaunches hunt budget config.onsetFailureSeconds config.onsetLaunchSeconds
    config.probeMttfMultiplier

/-- The number of launches of a probe's series. -/
def launches (context : HuntContext) (hunt : HuntState) : Nat :=
  (launchSeries context hunt).2.toNat

/-! ## The engine's memory and its row -/

/-- How the boot of the session ended. -/
inductive BootEnd
  /-- It has not. -/
  | same
  | clean
  | died
deriving DecidableEq

/-- What the engine and the session row hold of a hunt. -/
structure HuntMemory where
  hunt : Option HuntState := none
  /-- The column `hunt_state`. -/
  row : Option HuntState := none
  hunting : Bool := false
  /-- The launches still to be started after the one that runs. -/
  launchesLeft : Nat := 0
  launchSeconds : Int := 0
  soaking : Bool := false
  paused : Bool := false
  quarantined : Bool := false
  abortRequested : Bool := false
  thermalAborts : Nat := 0
  apparatusFaults : Nat := 0
  bootEnd : BootEnd := .same
  /-- The hunt that was resolved last. -/
  resolved : Option HuntState := none
  /-- History: the answers recorded, with their masks. -/
  answers : List (List CoreId × Bool) := []
  /-- History: the launches that ended clean since an answer was recorded. -/
  clean : Nat := 0

/-- A launch of a probe. -/
structure Launch where
  live : List CoreId
  loaded : List CoreId
  /-- The core the worker reports under. -/
  reporter : CoreId
  seconds : Int
  kind : Option String

/-- What is queued. -/
inductive HuntTask
  | nextHuntSlot
  /-- The search goes on. -/
  | search

/-- What becomes of a slot that is dispatched. -/
inductive Dispatch
  | started
  /-- A write of the mask is refused. -/
  | maskRejected
  /-- The worker cannot be built. -/
  | failed (message : String)

/-- How a resume is met before the hunt is looked at. -/
inductive Admission
  | admitted
  | refused
  | pausedEarly

/-- What a resume makes of a machine that died under no armed probe. -/
inductive Attribution
  | blamed
  | unreadable
  | unnamed (observedFailureTime : ℚ)

/-- What the environment decides while a reaction runs. -/
structure HuntChoice where
  dispatch : Dispatch := .started
  /-- Every core is verified at stock, or at its baseline. -/
  restored : Bool := true
  /-- The tested core is verified at its baseline. -/
  reverted : Bool := true
  /-- Charging the other cores pauses the session. -/
  evidencePauses : Bool := false
  /-- A worker that is told to stop does. -/
  workerStops : Bool := true
  admission : Admission := .admitted
  attribution : Attribution := .blamed
  /-- How the process ends. -/
  ending : BootEnd := .same

inductive HuntCall
  /-- The search or the validation opens a hunt. -/
  | startHunt (observedFailureTime : ℚ) (loaded : List CoreId) (vector : List (CoreId × Int))
      (workload : Option WorkloadEntry)
  | resume
  | pause
  | abort
  | shutdown

abbrev HuntReaction := Reaction HuntMemory HuntTask Launch Report

abbrev HuntLoop := Loop HuntMemory HuntTask Launch Report

namespace HuntMemory

/-- Change the hunt and save it. -/
def save (memory : HuntMemory) (hunt : HuntState) : HuntMemory :=
  { memory with hunt := some hunt, row := some hunt }

/-- Pause, unless the session is closed. -/
def pause (memory : HuntMemory) : HuntMemory :=
  if memory.quarantined then memory else { memory with paused := true }

/-- `_requeue_hunt_probe`. -/
def requeue (memory : HuntMemory) : HuntMemory :=
  let kept := { memory with launchesLeft := 0 }
  match memory.hunt with
  | none => kept
  | some hunt => kept.save { hunt with armed := false }

/-- `_restore_hunt_stock` failed. -/
def quarantine (memory : HuntMemory) : HuntMemory := { memory with quarantined := true }

/-- `_record_hunt_probe`. -/
def recordProbe (config : TunerConfig) (memory : HuntMemory) (hunt : HuntState)
    (reproduced : Bool) : HuntMemory :=
  let answered :=
    { memory with
      launchesLeft := 0
      answers := memory.answers ++ [(hunt.inFlight, reproduced)]
      clean := 0 }
  answered.save (record hunt reproduced config.maxUnattributedCrashHunts.toNat)

end HuntMemory

namespace HuntContext

variable (context : HuntContext)

/-- Some cores of the session under load: the least one where none is known. -/
def loadedCores (loaded : List CoreId) : List CoreId :=
  match loaded.filter (· ∈ context.coreIds) with
  | [] => (sorted context.coreIds).take 1
  | known => known

/-- `_hunt_candidates`. -/
def huntCandidates (vector : List (CoreId × Int)) : List CoreId :=
  sorted ((vector.filter fun entry => entry.1 ∈ context.coreIds ∧ entry.2 ≠ 0).map Prod.fst)

/-- The launch a probe goes on with. -/
def launchOf (hunt : HuntState) (live : List CoreId) (seconds : Int) : Launch :=
  let loaded := context.loadedCores hunt.loaded
  { live
    loaded
    reporter := loaded.headD 0
    seconds
    kind := hunt.workload.bind (·.kind) }

/-- Apply the mask of a probe and launch its load. -/
def dispatch (memory : HuntMemory) (hunt : HuntState) (live : List CoreId)
    (choice : HuntChoice) : HuntReaction :=
  let disarmed := memory.save { hunt with armed := false }
  let launch := context.launchOf hunt live memory.launchSeconds
  let ready :=
    { disarmed with soaking := disarmed.soaking || decide (launch.kind = some "soak") }
  match choice.dispatch with
  | .maskRejected =>
      -- A mask that is not on the hardware is not tested: the hunt is paused, or closed where stock
      -- is not restored.
      { memory := if choice.restored then disarmed.pause else disarmed.quarantine
        writes := true }
  | .failed message =>
      { memory := ready
        writes := true
        next := .fail
          { core := launch.reporter
            passed := false
            errorMessage := some message
            errorType := some .startup } }
  | .started =>
      -- The launch is armed in the row before it runs, so that a crash can be told from a pause.
      { memory := ready.save { hunt with armed := true }
        writes := true
        next := .launch launch }

/-- `_run_next_hunt_slot`. -/
def runNextHuntSlot (memory : HuntMemory) (choice : HuntChoice) : HuntReaction :=
  match memory.hunt, memory.abortRequested || memory.paused with
  | some hunt, false =>
      if memory.launchesLeft ≠ 0 then
        context.dispatch { memory with launchesLeft := memory.launchesLeft - 1 } hunt
          hunt.inFlight choice
      else
        let asked := nextLiveSet hunt
        match asked.1 with
        | none =>
            { memory :=
                { memory with
                  hunt := none
                  row := none
                  hunting := false
                  resolved := some asked.2 }
              next := .later .search }
        | some live =>
            let total := launches context asked.2
            let done := min hunt.launchesDone (total - 1)
            context.dispatch
              { memory with
                launchSeconds := (launchSeries context asked.2).1
                launchesLeft := total - 1 - done }
              asked.2 live choice
  | _, _ =>
      -- A series cut short has not answered its question.
      { memory :=
          if memory.paused && decide (memory.launchesLeft ≠ 0) then memory.requeue else memory }

/-- `_start_hunt`. -/
def startHunt (memory : HuntMemory) (observedFailureTime : ℚ) (loaded : List CoreId)
    (vector : List (CoreId × Int)) (workload : Option WorkloadEntry) (choice : HuntChoice) :
    HuntReaction :=
  let candidates := context.huntCandidates vector
  -- Where nothing was undervolted, the platform is at fault.
  if candidates = [] then { memory := { memory with hunting := false, hunt := none, row := none } }
  else
    match begin candidates (context.loadedCores loaded) observedFailureTime with
    | .error _ => { memory }
    | .ok opened =>
        let started := { memory with hunting := true, thermalAborts := 0 }
        context.runNextHuntSlot (started.save { opened with vector, workload }) choice

/-! ## Results -/

/-- Other cores of the session that the kernel named. -/
def foreign (memory : HuntMemory) (report : Report) : List CoreId :=
  let unnamed := memory.soaking ||
    decide (report.errorType ∈ [some ErrorType.startup, some .thermal])
  foreignMceByCore context.cpuToCore context.coreIds (if unnamed then none else some report.core)
    report.observed

/-- The core was not live, or live at stock. -/
def atStock (hunt : HuntState) (core : CoreId) : Bool :=
  decide (core ∉ hunt.inFlight) || decide ((hunt.vector.lookup core).getD 0 = 0)

/-- There is evidence against a core at stock. -/
def inconsistent (memory : HuntMemory) (hunt : HuntState) (report : Report) : Bool :=
  (!report.passed && atStock hunt report.core) ||
    (context.foreign memory report).any (atStock hunt)

/-- `_on_hunt_slot_finished`. -/
def onHuntSlotFinished (memory : HuntMemory) (report : Report) : HuntReaction :=
  let rested := { memory with soaking := false }
  match rested.hunt with
  | none => { memory := { rested with hunting := false }, next := .later .search }
  | some hunt =>
      if context.inconsistent memory hunt report then
        { memory := rested.requeue.pause }
      else
        let reproduced := !report.passed || decide (context.foreign memory report ≠ [])
        if !reproduced && decide (rested.launchesLeft ≠ 0) then
          { memory := rested.save { hunt with launchesDone := hunt.launchesDone + 1 }
            next := .later .nextHuntSlot }
        else
          { memory := rested.recordProbe context.config hunt reproduced
            next := .later .nextHuntSlot }

/-- What `abort` and `shutdown` do to a hunt, once the worker is stopped. -/
def stopAndRestore (memory : HuntMemory) (choice : HuntChoice) : HuntMemory :=
  let stopped := { memory with abortRequested := true }
  if !choice.workerStops || !choice.restored then stopped
  else
    let rested := { stopped with soaking := false }
    if rested.hunting then ({ rested with hunting := false } : HuntMemory).requeue else rested

/-- `abort`: outside a hunt, what is left of one is given up. -/
def abort (memory : HuntMemory) (choice : HuntChoice) : HuntMemory :=
  let stopped := stopAndRestore memory choice
  if choice.workerStops && choice.restored && !memory.hunting then { stopped with row := none }
  else stopped

/-- A slot that could not be run. -/
def onStartupFailure (memory : HuntMemory) (report : Report) (choice : HuntChoice) :
    HuntMemory :=
  let charged :=
    if context.foreign memory report ≠ [] ∧ choice.evidencePauses = true then memory.pause
    else memory
  if memory.hunting && memory.hunt.isSome then
    if choice.restored then charged.requeue.pause else charged.requeue.quarantine
  else
    charged.pause

/-- A slot that was stopped for heat. -/
def onThermalStop (memory : HuntMemory) (report : Report) (choice : HuntChoice) : HuntReaction :=
  if context.foreign memory report ≠ [] ∧ choice.evidencePauses = true then
    { memory := memory.pause }
  else if memory.hunting then
    let counted := { memory with thermalAborts := memory.thermalAborts + 1 }
    if context.config.maxThermalRetries < counted.thermalAborts then
      { memory := abort counted choice }
    else
      { memory := counted.requeue, next := .later .nextHuntSlot }
  else
    { memory }

/-- `_handle_apparatus_fault`. -/
def handleApparatusFault (memory : HuntMemory) (report : Report) (choice : HuntChoice) :
    HuntReaction :=
  let rested := { memory with soaking := false }
  if context.foreign memory report ≠ [] ∧ choice.evidencePauses = true then
    { memory := rested.pause }
  else
    let counted := { rested with apparatusFaults := rested.apparatusFaults + 1 }
    if context.config.maxApparatusRetries < counted.apparatusFaults then
      { memory := abort counted choice }
    else if counted.hunting then
      { memory := counted.requeue, next := .later .nextHuntSlot }
    else
      { memory := counted }

/-- The slot is over: its probe is not armed any more. -/
def disarm (memory : HuntMemory) : HuntMemory :=
  match memory.hunting, memory.hunt with
  | true, some hunt => memory.save { hunt with armed := false }
  | _, _ => { memory with row := none }

/-- `_on_test_finished`, during a hunt. -/
def onTestFinished (memory : HuntMemory) (report : Report) (choice : HuntChoice) :
    HuntReaction :=
  if memory.abortRequested then { memory }
  else
    let ended := disarm memory
    if report.core ∉ context.coreIds then { memory := ended }
    else if report.passed = false ∧ report.errorType = some .startup then
      { memory := context.onStartupFailure ended report choice }
    else if report.passed = false ∧ report.errorType = some .thermal then
      context.onThermalStop ended report choice
    else if report.passed = false ∧ lacksVerdict report.errorType = true then
      context.handleApparatusFault ended report choice
    else
      let judged := { ended with apparatusFaults := 0 }
      -- In a paused session a verdict counts only if the tested core is back at its baseline.
      if (judged.paused || judged.quarantined) && !choice.reverted then
        { memory := judged.pause }
      else if judged.hunting then
        context.onHuntSlotFinished judged report
      else
        { memory := judged }

/-! ## Resuming -/

/-- The hunt a resume finds in the row, and whether the machine died under it. -/
def resume (memory : HuntMemory) (choice : HuntChoice) : HuntReaction :=
  let fresh :=
    { memory with
      abortRequested := false
      paused := false
      hunting := false
      hunt := none
      soaking := false
      launchesLeft := 0 }
  match choice.admission with
  | .refused => { memory := fresh }
  | .pausedEarly => { memory := fresh.pause }
  | .admitted =>
      -- A quarantined session is re-opened as if the boot were the same.
      let died := decide (memory.bootEnd = .died) && !memory.quarantined
      let opened := { fresh with quarantined := false, bootEnd := .same }
      -- Baselines are restored before anything goes on.
      let goOn (held : HuntMemory) (next : HuntReaction) : HuntReaction :=
        if choice.restored then { next with writes := true }
        else { memory := held.pause, writes := true }
      match memory.row with
      | none => goOn opened { memory := opened, next := .later .search }
      | some hunt =>
          if !died then
            let found := ({ opened with hunting := true } : HuntMemory).save hunt
            let requeued := if hunt.armed then found.requeue else found
            goOn requeued (context.runNextHuntSlot requeued choice)
          else
            let found := { opened with hunt := some hunt }
            let hunting := { opened with hunting := true }
            if hunt.armed then
              goOn found (context.runNextHuntSlot
                (hunting.recordProbe context.config { hunt with armed := false } true) choice)
            else
              match choice.attribution with
              | .blamed =>
                  let searching := { found with row := none }
                  goOn searching { memory := searching, next := .later .search }
              | .unreadable => { memory := ({ found with bootEnd := .died } : HuntMemory).pause }
              | .unnamed seconds =>
                  let timed :=
                    if !hunt.started ∧ seconds ≠ 0 then { hunt with observedFailureTime := seconds }
                    else hunt
                  goOn found (context.runNextHuntSlot (hunting.save timed) choice)

/-! ## The event loop -/

/-- The result is taken for one of the probe in flight. -/
def taken (memory : HuntMemory) (report : Report) : Bool :=
  !memory.abortRequested && memory.hunting && memory.hunt.isSome &&
    decide (report.core ∈ context.coreIds)

/-- A clean end of a launch: a pass, and no evidence against another core. -/
def isClean (memory : HuntMemory) (report : Report) : Bool :=
  report.passed && decide (context.foreign memory report = [])

/-- Keep count of the clean ends. -/
def noteClean (memory : HuntMemory) (report : Report) : HuntMemory :=
  if context.taken memory report && context.isClean memory report then
    { memory with clean := memory.clean + 1 }
  else
    memory

/-- What is left when the process ends: the row. -/
def onExit (memory : HuntMemory) (choice : HuntChoice) : HuntMemory :=
  { row := memory.row
    quarantined := memory.quarantined
    bootEnd := if memory.bootEnd = .same then choice.ending else memory.bootEnd
    resolved := memory.resolved
    answers := memory.answers
    clean := memory.clean }

/-- The engine as an event loop, as far as a hunt is concerned. -/
def huntProgram : Program HuntMemory HuntTask Launch Report HuntCall HuntChoice where
  Start memory := memory = {}
  onTask memory task choice :=
    match task with
    | .nextHuntSlot => context.runNextHuntSlot memory choice
    | .search => { memory }
  onResult memory report choice :=
    context.onTestFinished (context.noteClean memory report) report choice
  onCall memory call choice :=
    match call with
    | .startHunt observedFailureTime loaded vector workload =>
        context.startHunt memory observedFailureTime loaded vector workload choice
    | .resume => context.resume memory choice
    | .pause => { memory := memory.pause }
    | .abort => { memory := abort memory choice, stops := choice.workerStops }
    | .shutdown => { memory := stopAndRestore memory choice, stops := choice.workerStops }
  guarded call := match call with
    | .resume => true
    | _ => false
  onExit := onExit

end HuntContext

end Tuner
end CoreCycler
