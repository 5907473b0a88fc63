import CoreCycler.Library.StepSystem
import CoreCycler.Tuner.Advance
import CoreCycler.Tuner.TestOrder

/-!
# Multi-core validation

Once every core is confirmed, the profile as a whole is put to the test: each core alone with
all offsets live, all cores at once, each half of them, load transitions, light load, memory
load and a soak.  A failing core is backed off one step and the failed slot run again; the flag
`dirty` remembers that the profile has changed, and one more pass is owed for it.  A pass that
ends without it completes the session, or goes on to endurance, which never ends.

`Validator` is the engine as far as this is concerned, with the part of its session row.  At
any time it has one thing to do (`Flow`): a timer that is queued, or a worker that runs.  What
else the engine does with the cores, the search they are sent back to, a hunt, and the time
before a resume, shows only in the state they come back in.
-/

namespace CoreCycler
namespace Tuner
namespace Validation

open TestOrder

/-! ## The engine's memory and its row -/

/-- The validation cursor. -/
structure Position where
  stage : Nat := 0
  coreIndex : Nat := 0
  halfIndex : Nat := 0
  dirty : Bool := false
  requeue : List CoreId := []
deriving DecidableEq, Repr

/-- The endurance cursor. -/
structure Endurance where
  round : Nat := 0
  workload : Nat := 0
  index : Nat := 0
deriving DecidableEq, Repr

/-- A slot of a validation pass. -/
inductive Slot
  | solo (core : CoreId)
  | allCores
  | half (index : Nat)
  | transitions
  | spectrum (core : CoreId)
  | memory
  | soak
  /-- The solo re-test of a core that was backed off. -/
  | retest (core : CoreId)
  /-- An endurance slot of one core, or of all of them. -/
  | endurance (round workload : Nat) (core : Option CoreId)
deriving DecidableEq, Repr

/-- What the engine is going to do. -/
inductive Flow
  /-- `_run_validation_next` is queued. -/
  | next
  /-- `_run_validation_requeue` is queued. -/
  | requeue
  | running (slot : Slot)
  /-- The cores are back in the search. -/
  | search
  | hunting
  /-- Nothing is queued until a resume. -/
  | stopped
  | completed
deriving DecidableEq, Repr

/-- The engine during validation, with the columns of its session row. -/
structure Validator where
  cores : List CoreState
  order : List CoreId := []
  halves : List (List CoreId) := []
  position : Position := {}
  endurance : Endurance := {}
  inRequeue : Bool := false
  underStress : List CoreId := []
  thermalAborts : Nat := 0
  apparatusFaults : Nat := 0
  paused : Bool := false
  flow : Flow := .search
  row : Position := {}
  enduranceRow : Endurance := {}
  unattributed : Nat := 0
deriving DecidableEq, Repr

/-- What a dispatch finds: whether the offsets could be applied, whether the memory tool is
installed, and which core may be probed deeper. -/
structure Dispatch where
  applied : Bool := true
  memoryTool : Bool := true
  annealCandidate : Option CoreId := none
deriving DecidableEq, Repr

/-- The best offsets. -/
def profileOf (cores : List CoreState) : List (CoreId × Option Int) :=
  cores.map fun cs => (cs.coreId, cs.bestOffset)

/-- The cores with a best offset, in ascending order. -/
def coreOrder (cores : List CoreState) : List CoreId :=
  ((cores.filter (·.bestOffset.isSome)).map (·.coreId)).insertionSort (· ≤ ·)

/-- Every second core. -/
def everySecond : List CoreId → List CoreId
  | [] => []
  | [core] => [core]
  | core :: _ :: rest => core :: everySecond rest

variable (ccd : CoreId → Option Nat)

/-- Split cores in ascending order by CCD, or by position where there is only one CCD. -/
def splitCoresIntoHalves (cores : List CoreId) : List (List CoreId) :=
  let ccds := (cores.map (ccdOf ccd)).dedup.insertionSort (· ≤ ·)
  let onCcd := fun index => cores.filter fun core => decide (ccdOf ccd core = index)
  if 2 ≤ ccds.length then
    [((ccds.take (ccds.length / 2)).flatMap onCcd).insertionSort (· ≤ ·),
      ((ccds.drop (ccds.length / 2)).flatMap onCcd).insertionSort (· ≤ ·)]
  else
    [everySecond cores, everySecond cores.tail]

def validationHalves (cores : List CoreId) : List (List CoreId) :=
  (splitCoresIntoHalves ccd cores).filter fun half => decide (half ≠ [])

namespace Validator

def halt (v : Validator) : Validator := { v with flow := .stopped }

/-- Go on from `position`: `_save_validation_pos`, and the next dispatch queued. -/
def moveTo (v : Validator) (position : Position) : Validator :=
  { v with position := position, row := position, flow := .next }

/-- Owe a solo re-test from `position`. -/
def requeueAt (v : Validator) (position : Position) : Validator :=
  { v with position := position, row := position, flow := .requeue }

/-- `_save_endurance_pos`. -/
def moveEndurance (v : Validator) (endurance : Endurance) : Validator :=
  { v with endurance := endurance, enduranceRow := endurance }

def mapCores (v : Validator) (change : CoreState → CoreState) : Validator :=
  { v with cores := v.cores.map change }

/-- A penalty during validation makes the pass dirty, in memory and in the row. -/
def noteDirty (v : Validator) (dirtied : Bool) : Validator :=
  if dirtied ∧ 0 < v.row.stage then
    { v with
      position := { v.position with dirty := true }, row := { v.row with dirty := true } }
  else v

/-- The mark that attributes a crash during the slot. -/
def markCoresUnderStress (v : Validator) (cores : List CoreId) : Validator :=
  { v.mapCores fun cs => if cs.coreId ∈ cores then { cs with inTest := true } else cs with
    underStress := cores }

def clearCoresUnderStress (v : Validator) : Validator :=
  { v.mapCores fun cs => if cs.coreId ∈ v.underStress then { cs with inTest := false } else cs with
    underStress := [] }

/-- Start the worker of a slot, once the offsets of all cores are applied. -/
def launch (v : Validator) (env : Dispatch) (slot : Slot) (cores : List CoreId) : Validator :=
  if env.applied then { v.markCoresUnderStress cores with flow := .running slot } else v.halt

/-- `_stop_and_restore`, as an abort or a shutdown does it. -/
def stopAndRestore (v : Validator) : Validator :=
  { v.mapCores fun cs => { cs with inTest := false } with
    position := { v.position with stage := 0 }
    inRequeue := false
    flow := .stopped }

/-- Leave validation so demoted cores re-earn; the saved cursor stays put. -/
def exitToSearch (v : Validator) : Validator :=
  { v with position := { v.position with stage := 0 }, flow := .search }

/-! ## The stages -/

def runValidationStage1 (v : Validator) (env : Dispatch) : Validator :=
  match v.order[v.position.coreIndex]? with
  | none => v.moveTo { v.position with stage := 2 }
  | some core => v.launch env (.solo core) [core]

def runValidationStage3 (v : Validator) (env : Dispatch) : Validator :=
  match v.halves[v.position.halfIndex]? with
  | none => v.moveTo { v.position with stage := 4 }
  | some half => v.launch env (.half v.position.halfIndex) half

def runValidationStage5 (v : Validator) (env : Dispatch) : Validator :=
  match v.order[v.position.coreIndex]? with
  | none => v.moveTo { v.position with stage := 6, coreIndex := 0 }
  | some core => v.launch env (.spectrum core) [core]

def isSpectrum (workload : WorkloadEntry) : Bool := decide (workload.profile = some "spectrum")

/-- Start the next endurance round, or send the core that has earned a probe to it. -/
def finishEnduranceRound (config : TunerConfig) (v : Validator) (env : Dispatch) : Validator :=
  let v := { v with unattributed := if v.position.dirty then v.unattributed else 0 }
  let v := (v.moveTo { v.position with dirty := false }).moveEndurance
    { round := v.endurance.round + 1 }
  match env.annealCandidate with
  | none => v
  | some core =>
      (v.mapCores fun cs =>
        if cs.coreId = core then (startAnneal config cs).core else cs).exitToSearch

/-- One solo slot per core, then one all-core slot, per workload, per round. -/
def runEnduranceNext (config : TunerConfig) (v : Validator) (env : Dispatch) : Validator :=
  let cursor := v.endurance
  match config.enduranceWorkloads[cursor.workload]? with
  | none => v.finishEnduranceRound config env
  | some workload =>
      match v.order[cursor.index]? with
      | some core => v.launch env (.endurance cursor.round cursor.workload (some core)) [core]
      | none =>
          if cursor.index = v.order.length ∧ !isSpectrum workload then
            v.launch env (.endurance cursor.round cursor.workload none) v.order
          else
            { v.moveEndurance { cursor with workload := cursor.workload + 1, index := 0 } with
              flow := .next }

/-- Replace completion with an endless confirmation loop. -/
def enterEndurance (v : Validator) : Validator :=
  ({ v with unattributed := 0 }.moveTo
    { v.position with stage := 9, coreIndex := 0, halfIndex := 0, dirty := false }).moveEndurance {}

/-- Apply the profile and close the session; refused while a clean pass is owed. -/
def finalizeSession (v : Validator) (env : Dispatch) : Validator :=
  if v.position.dirty then
    { v with row := v.position }.halt
  else if env.applied then
    { v.moveTo { v.position with stage := 0, requeue := [] } with
      unattributed := 0, flow := .completed }
  else v.halt

/-- All stages complete: a pass that changed the profile is followed by another one. -/
def allStagesComplete (config : TunerConfig) (v : Validator) (env : Dispatch) : Validator :=
  if v.position.dirty then
    v.moveTo { stage := 1 }
  else if config.endurance then
    v.enterEndurance
  else
    { v with position := { v.position with coreIndex := 0, halfIndex := 0 } }.finalizeSession env

/-- Dispatch the next validation test based on the current stage. -/
def runValidationNext (config : TunerConfig) (v : Validator) (env : Dispatch) : Validator :=
  if v.paused then v.halt
  else
    match v.position.stage with
    | 1 => v.runValidationStage1 env
    | 2 => v.launch env .allCores v.order
    | 3 => v.runValidationStage3 env
    | 4 =>
        if config.validateTransitions then v.launch env .transitions v.order
        else v.moveTo { v.position with stage := 5, coreIndex := 0 }
    | 5 =>
        if config.validateSpectrum then v.runValidationStage5 env
        else v.moveTo { v.position with stage := 6 }
    | 6 =>
        if config.validateMemory ∧ env.memoryTool then v.launch env .memory v.order
        else v.moveTo { v.position with stage := 7 }
    | 7 =>
        -- A dirty pass skips the soak; the final clean pass earns it.
        if config.validateSoak ∧ !v.position.dirty then v.launch env .soak v.order
        else v.moveTo { v.position with stage := 8 }
    | 9 => v.runEnduranceNext config env
    | _ => v.allStagesComplete config env

/-- Solo re-test for cores whose offset changed; then the pending stage reruns. -/
def runValidationRequeue (v : Validator) (env : Dispatch) : Validator :=
  if v.paused then v.halt
  else
    match v.position.requeue with
    | [] => { v with inRequeue := false }.moveTo v.position
    | core :: _ => { v with inRequeue := true }.launch env (.retest core) [core]

/-! ## Entering -/

/-- Begin validation, or continue it from the saved cursor.  `logged` says which cores have a
logged pass of stage 1 at their best offset. -/
def enterAutoValidation (config : TunerConfig) (v : Validator) (logged : CoreId → Bool)
    (env : Dispatch) : Validator :=
  let order := coreOrder v.cores
  let halves := validationHalves ccd order
  let v := { v with order := order, halves := halves, thermalAborts := 0 }
  if 0 < v.row.stage then
    -- A resume re-runs synthetic stages, never lands straight in the soak.
    let stage := if v.row.stage = 9 then 9 else min v.row.stage 6
    let kept : List CoreId :=
      v.row.requeue.filter fun core => decide (core ∈ v.cores.map (·.coreId))
    let requeue :=
      if 2 ≤ stage then
        kept ++ order.filter fun core : CoreId => decide (core ∉ kept) && !logged core
      else kept
    let position : Position :=
      { stage := stage
        coreIndex := min v.row.coreIndex order.length
        halfIndex := min v.row.halfIndex halves.length
        dirty := v.position.dirty || v.row.dirty
        requeue := requeue }
    let v := (v.moveTo position).moveEndurance
      { round := v.enduranceRow.round
        workload := min v.enduranceRow.workload config.enduranceWorkloads.length
        index := min v.enduranceRow.index order.length }
    if requeue ≠ [] then v.runValidationRequeue env else v.runValidationNext config env
  else
    (({ v with unattributed := 0 }.moveTo { stage := 1 }).moveEndurance {}).runValidationNext
      config env

/-- All cores done: enter validation, or close the session. -/
def completeSession (config : TunerConfig) (v : Validator) (logged : CoreId → Bool)
    (env : Dispatch) : Validator :=
  if config.autoValidate ∧ v.position.stage = 0 ∧ 1 < (coreOrder v.cores).length then
    v.enterAutoValidation ccd config logged env
  else v.finalizeSession env

end Validator

/-! ## Results -/

/-- Kernel evidence against a core, at the offset that was resident. -/
structure Evidence where
  core : CoreId
  resident : Int
  corrected : Bool
deriving DecidableEq, Repr

/-- How a slot ended, as the worker's result classes it. -/
inductive Ending
  | verdict (passed : Bool)
  /-- The test could not run. -/
  | startup
  | thermal
  /-- A stall, an external kill, an unattributed machine check: no verdict. -/
  | apparatus
deriving DecidableEq, Repr

/-- A worker's result: the core it reports under, and the evidence about other cores. -/
structure Result where
  core : CoreId
  ending : Ending
  evidence : List Evidence := []
deriving DecidableEq, Repr

namespace Validator

/-- Back off one core, when it has anything to give. -/
def backoffCoreIn (config : TunerConfig) (cores : List CoreState) (core : CoreId) :
    Option (List CoreState) :=
  if cores.any fun cs => decide (cs.coreId = core) && (backoffCore config cs).isSome then
    some (cores.map fun cs => if cs.coreId = core then (backoffCore config cs).getD cs else cs)
  else none

/-- Validation failed with nothing left to back off: fail closed. -/
def finalizeExhausted (v : Validator) : Validator :=
  { v with row := v.position, paused := true }.halt

/-- A re-test ended. -/
def finishRetest (config : TunerConfig) (v : Validator) (core : CoreId) (passed : Bool) :
    Validator :=
  if passed then
    { v with thermalAborts := 0 }.requeueAt
      { v.position with requeue := v.position.requeue.erase core }
  else
    let v := { v with position := { v.position with dirty := true } }
    match backoffCoreIn config v.cores core with
    | none => v.finalizeExhausted
    | some cores => { v with cores := cores }.requeueAt v.position

/-- The cursor after a slot of the stage has passed. -/
def afterPass (position : Position) : Position :=
  match position.stage with
  | 1 => { position with coreIndex := position.coreIndex + 1 }
  | 2 => { position with stage := 3, halfIndex := 0 }
  | 3 => { position with halfIndex := position.halfIndex + 1 }
  | 4 => { position with stage := 5, coreIndex := 0 }
  | 5 => { position with coreIndex := position.coreIndex + 1 }
  | 6 => { position with stage := 7 }
  | _ => position

def passSlot (v : Validator) : Validator :=
  ({ v with thermalAborts := 0 }.moveTo (afterPass v.position)).moveEndurance
    (if v.position.stage = 9 then { v.endurance with index := v.endurance.index + 1 }
      else v.endurance)

/-- A slot of a stage failed: the core is backed off, and the slot retried, after a solo
re-test where it stressed other cores as well. -/
def failSlot (config : TunerConfig) (v : Validator) (core : CoreId) : Validator :=
  if v.position.stage = 4 then
    -- Nobody is named: the hunt that starts leaves validation behind.
    let dirty := { v.position with dirty := true }
    { v with
      position := { dirty with stage := 0 }, row := dirty, thermalAborts := 0, flow := .hunting }
  else if v.position.stage ∈ [1, 2, 3, 5, 6, 9] then
    match backoffCoreIn config v.cores core with
    | none => v.finalizeExhausted
    | some cores =>
        let v := { v with cores := cores }
        if v.position.stage = 1 ∨ v.position.stage = 5 ∨
            (v.position.stage = 9 ∧ v.endurance.index < v.order.length) then
          v.moveTo { v.position with dirty := true }
        else
          v.requeueAt { v.position with dirty := true, requeue := [core] }
  else v.finalizeExhausted

def onValidationTestFinished (config : TunerConfig) (v : Validator) (core : CoreId)
    (passed : Bool) : Validator :=
  if v.inRequeue then v.finishRetest config core passed
  else if passed then v.passSlot
  else v.failSlot config core

/-- The soak ended without evidence against a core. -/
def finishSoak (config : TunerConfig) (v : Validator) (passed : Bool) : Validator :=
  if passed then
    v.moveTo { v.position with stage := 8 }
  else
    let v := { v with unattributed := v.unattributed + 1 }
    let v := v.moveTo { v.position with dirty := true }
    if config.maxUnattributedCrashHunts ≤ (v.unattributed : Int) then
      { v with paused := true }.halt
    else v

/-- Charge a core with a hardware error at its resident offset. -/
def applyMceEvidence (config : TunerConfig) (v : Validator) (evidence : Evidence) : Validator :=
  match v.cores.find? (·.coreId = evidence.core) with
  | none => v
  | some cs =>
      if evidence.resident = 0 then { v with paused := true }
      else
        let outcome := penalizeResident config cs evidence.resident
          (if evidence.corrected then some 1 else none) (!evidence.corrected)
        let charged := v.mapCores fun held =>
          if held.coreId = evidence.core then outcome.core else held
        { charged.noteDirty outcome.validationDirtied with
          paused := v.paused || outcome.paused }

def applyForeignEvidence (config : TunerConfig) (v : Validator) (evidence : List Evidence) :
    Validator :=
  evidence.foldl (applyMceEvidence config) v

/-- Evidence outranks the normal flow: the named cores re-earn their confirmation. -/
def leaveForEvidence (config : TunerConfig) (v : Validator) (evidence : List Evidence) :
    Validator :=
  let v := v.applyForeignEvidence config evidence
  if v.paused then v.halt else v.exitToSearch

/-- Evidence from the soak: the pass is dirty, whatever the evidence comes to. -/
def leaveSoak (config : TunerConfig) (v : Validator) (evidence : List Evidence) : Validator :=
  let v := v.applyForeignEvidence config evidence
  if v.paused then v.halt
  else
    let dirty := { v.position with dirty := true }
    { v with position := dirty, row := dirty }.exitToSearch

/-- Queue the step that did not come to a verdict. -/
def retry (v : Validator) : Validator :=
  { v with flow := if v.inRequeue then .requeue else .next }

def handleThermalAbort (config : TunerConfig) (v : Validator) : Validator :=
  let v := { v with thermalAborts := v.thermalAborts + 1 }
  if config.maxThermalRetries < (v.thermalAborts : Int) then v.stopAndRestore else v.retry

def handleApparatusFault (config : TunerConfig) (v : Validator) : Validator :=
  let v := { v with apparatusFaults := v.apparatusFaults + 1 }
  if config.maxApparatusRetries < (v.apparatusFaults : Int) then v.stopAndRestore else v.retry

/-- The marks that a slot leaves when its result is in. -/
def unmark (v : Validator) (core : CoreId) : Validator :=
  (v.mapCores fun cs =>
    if cs.coreId = core then { cs with inTest := false } else cs).clearCoresUnderStress

/-- Process the result of the slot that ran. -/
def onTestFinished (config : TunerConfig) (v : Validator) (slot : Slot) (result : Result) :
    Validator :=
  if result.core ∉ v.cores.map (·.coreId) then v.halt
  else
    let v := v.unmark result.core
    match result.ending with
    -- A slot that did not start says nothing about its core; its evidence counts all the same.
    | .startup => { v.applyForeignEvidence config result.evidence with paused := true }.halt
    | .thermal =>
        if result.evidence ≠ [] then v.leaveForEvidence config result.evidence
        else v.handleThermalAbort config
    | .apparatus =>
        if result.evidence ≠ [] then v.leaveForEvidence config result.evidence
        else v.handleApparatusFault config
    | .verdict passed =>
        let v := { v with apparatusFaults := 0 }
        -- Evidence outranks the verdict: whatever was reported, the pass is left for it.
        if slot = .soak then
          if result.evidence ≠ [] then v.leaveSoak config result.evidence
          else v.finishSoak config passed
        else if result.evidence ≠ [] then v.leaveForEvidence config result.evidence
        else v.onValidationTestFinished config result.core passed

/-! ## Resuming -/

end Validator

/-- What a resume makes of the time before it. -/
inductive Aftermath
  /-- The same boot, or one that ended cleanly, and no hunt is pending. -/
  | quiet
  /-- A hunt is to be continued or started; `died` says that the machine went down. -/
  | hunt (died : Bool)
  /-- A crash is charged to cores; `dirtied` says that a penalty made the pass dirty. -/
  | charged (dirtied : Bool)
  /-- The machine died with the profile live, and nothing names a core. -/
  | incident
  /-- The session cannot go on. -/
  | refused
deriving DecidableEq, Repr

namespace Aftermath

/-- The machine went down since the engine was last heard of. -/
def died : Aftermath → Bool
  | hunt died => died
  | charged _ | incident => true
  | quiet | refused => false

end Aftermath

/-- A resume, in this process or in a fresh one, with the cores as crash handling leaves
them. -/
structure Resumption where
  fresh : Bool := true
  cores : List CoreState
  aftermath : Aftermath := .quiet
  logged : CoreId → Bool := fun _ => true
  env : Dispatch := {}

/-- All cores are confirmed, so the session was paused during validation. -/
def wasValidating (config : TunerConfig) (cores : List CoreState) : Bool :=
  cores.all (fun cs => decide (cs.phase = .confirmed)) && config.autoValidate &&
    decide (1 < cores.length)

namespace Validator

/-- Where a resume continues. -/
def continueSession (config : TunerConfig) (v : Validator) (resumption : Resumption) : Validator :=
  if wasValidating config v.cores then
    v.enterAutoValidation ccd config resumption.logged resumption.env
  else { v with flow := .search }

/-- Whatever the stages left come to, a full clean pass is owed. -/
def invalidatePass (v : Validator) : Validator :=
  if v.position.dirty then v
  else
    let dirty := { v.position with dirty := true }
    { v with position := dirty, row := dirty }

def resume (config : TunerConfig) (v : Validator) (resumption : Resumption) : Validator :=
  let v :=
    { v with
      cores := resumption.cores
      position := {}
      endurance := {}
      inRequeue := false
      underStress := []
      apparatusFaults := if resumption.fresh then 0 else v.apparatusFaults
      paused := false }
  match resumption.aftermath with
  | .quiet => v.continueSession ccd config resumption
  | .hunt _ => { v with flow := .hunting }
  | .charged dirtied => (v.noteDirty dirtied).continueSession ccd config resumption
  | .incident =>
      let v := { v with unattributed := v.unattributed + 1 }
      -- After too many crashes without a name the session halts, and owes a clean pass.
      if config.maxUnattributedCrashHunts ≤ (v.unattributed : Int) then
        { v with row := { v.row with dirty := true }, paused := true }.halt
      else
        let continued := v.continueSession ccd config resumption
        if wasValidating config v.cores then continued.invalidatePass else continued
  | .refused => v.halt

/-! ## Steps -/

end Validator

/-- What happens to the engine. -/
inductive Event
  /-- The queued timer fires. -/
  | fire (env : Dispatch)
  | finished (result : Result)
  | pause
  /-- An abort or an orderly shutdown. -/
  | abort
  /-- The search comes back with every core confirmed; `dirtied` says that a penalty on the way
  made the pass dirty. -/
  | returned (cores : List CoreState) (dirtied : Bool) (logged : CoreId → Bool) (env : Dispatch)
  | resume (resumption : Resumption)

/-- The soak is left for evidence while it is stopped for heat: `_soaking` stays set, and the engine
goes on to take the search's next result for the soak's. -/
def Slot.staysSoaking (slot : Slot) (result : Result) : Bool :=
  decide (slot = .soak ∧ result.ending = .thermal ∧ result.evidence ≠ [])

/-- One step of the engine, in runs with one thing to do at a time: a resume in the same process
waits until nothing is queued, as it would leave a queued timer to fire beside its own, and no soak
leaves its mark on the search. -/
def step (config : TunerConfig) (v : Validator) : Event → Option Validator
  | .fire env =>
      match v.flow with
      | .next => some (v.runValidationNext config env)
      | .requeue => some (v.runValidationRequeue env)
      | _ => none
  | .finished result =>
      match v.flow with
      | .running slot =>
          if slot.staysSoaking result then none else some (v.onTestFinished config slot result)
      | _ => none
  | .pause => if v.flow = .completed then none else some { v with paused := true }
  | .abort => if v.flow = .completed then none else some v.stopAndRestore
  | .returned cores dirtied logged env =>
      if (v.flow = .search ∨ v.flow = .hunting) ∧ ¬ v.paused ∧
          cores.all (fun cs => decide (cs.phase = .confirmed)) then
        some (({ v with cores := cores }.noteDirty dirtied).completeSession ccd config logged env)
      else none
  | .resume resumption =>
      if v.flow = .completed ∨ (¬ resumption.fresh ∧ v.flow ≠ .stopped) then none
      else some (v.resume ccd config resumption)

end Validation
end Tuner
end CoreCycler
