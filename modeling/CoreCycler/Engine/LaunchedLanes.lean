import CoreCycler.Engine.LaneCharges
import CoreCycler.Engine.Supervision

/-!
# What a stage does to the lanes of a batch

A stage changes the lanes one by one, and `Moves` says which: the launched ones in any way,
and of the others those that a failed start, the thermal check before the start or the closing
read of the kernel log reach (`moves_step`).  No other stage reaches a lane that was not
launched, because the polls only run once all lanes were launched (`Standing`).
-/

namespace CoreCycler
namespace Engine

open Library Supervisor

/-- The start of a lane gets as far as the stop event. -/
def Launch.checksStop : Launch → Bool
  | .captureFailed _ | .refused _ => false
  | .started _ _ | .dutyFailed _ _ _ => true

/-! ## Moves -/

/-- The lanes are changed one by one; launched ones stay launched, and only those that may be
reached get a verdict or are launched. -/
structure Moves (may : LaneRun → Prop) (sup next : Supervisor) : Prop where
  change : ∃ change : LaneRun → LaneRun, next.runs = sup.runs.map change ∧
    ∀ run ∈ sup.runs, (change run).lane = run.lane ∧
      (run.launched = true → (change run).launched = true) ∧
      (may run ∨ (change run).launched = run.launched ∧ (change run).verdict = run.verdict)
  settings : next.stopOnFirstFailure = sup.stopOnFirstFailure
  stops : sup.stop = true → next.stop = true

namespace Moves

variable {may : LaneRun → Prop} {sup next last : Supervisor}

theorem refl (may : LaneRun → Prop) (sup : Supervisor) : Moves may sup sup :=
  ⟨⟨id, (List.map_id _).symm, fun _ _ => ⟨rfl, id, .inr ⟨rfl, rfl⟩⟩⟩, rfl, id⟩

theorem mono {other : LaneRun → Prop} (hmoves : Moves may sup next)
    (himp : ∀ run ∈ sup.runs, may run → other run) : Moves other sup next := by
  obtain ⟨change, hruns, hchange⟩ := hmoves.change
  refine ⟨⟨change, hruns, fun run hrun => ?_⟩, hmoves.settings, hmoves.stops⟩
  obtain ⟨hlane, hlaunched, hreached⟩ := hchange run hrun
  exact ⟨hlane, hlaunched, hreached.imp_left (himp run hrun)⟩

/-- What a poll fails, it may reach. -/
theorem of_charges (hcharges : Charges may sup next) : Moves may sup next := by
  obtain ⟨change, hruns, hchange⟩ := hcharges.change
  refine ⟨⟨change, hruns, fun run hrun => ?_⟩, hcharges.settings, hcharges.stops⟩
  have hrecast := hchange run hrun
  refine ⟨hrecast.lane.1, fun hlaunched => hrecast.lane.2.1.trans hlaunched, ?_⟩
  rcases hrecast with heq | ⟨hmay, -⟩
  · exact .inr ⟨by rw [heq], by rw [heq]⟩
  · exact .inl hmay

/-- A change of the lanes of one core, which may all be reached. -/
theorem onLane {core : Nat} {change : LaneRun → LaneRun}
    (hkeeps : ∀ run, (change run).lane = run.lane ∧
      (run.launched = true → (change run).launched = true))
    (hmay : ∀ run ∈ sup.runs, run.lane.coreId = core → may run) :
    Moves may sup (sup.onLane core change) := by
  refine ⟨⟨_, rfl, fun run hrun => ?_⟩, rfl, id⟩
  by_cases hcore : run.lane.coreId = core
  · rw [if_pos hcore]
    exact ⟨(hkeeps run).1, (hkeeps run).2, .inl (hmay run hrun hcore)⟩
  · rw [if_neg hcore]
    exact ⟨rfl, id, .inr ⟨rfl, rfl⟩⟩

theorem stop (hmoves : Moves may sup next) : Moves may sup { next with stop := true } :=
  ⟨hmoves.change, hmoves.settings, fun _ => rfl⟩

theorem lanes (hmoves : Moves may sup next) :
    next.runs.map LaneRun.lane = sup.runs.map LaneRun.lane := by
  obtain ⟨change, hruns, hchange⟩ := hmoves.change
  rw [hruns, List.map_map]
  exact List.map_congr_left fun run hrun => (hchange run hrun).1

theorem distinct (hmoves : Moves may sup next) (hdistinct : sup.Distinct) : next.Distinct := by
  have hcores := congrArg (List.map Lane.coreId) hmoves.lanes
  rw [List.map_map, List.map_map] at hcores
  unfold Distinct
  exact hcores ▸ hdistinct

theorem alone (hmoves : Moves may sup next) (halone : sup.Alone) : next.Alone := by
  intro hsettings
  have hlength := congrArg List.length hmoves.lanes
  rw [List.length_map, List.length_map] at hlength
  rw [hlength]
  exact halone (hmoves.settings ▸ hsettings)

/-- Each lane comes from one before, launched if that one was. -/
theorem of_mem (hmoves : Moves may sup next) {run : LaneRun} (hrun : run ∈ next.runs) :
    ∃ before ∈ sup.runs, run.lane = before.lane ∧
      (before.launched = true → run.launched = true) := by
  obtain ⟨change, hruns, hchange⟩ := hmoves.change
  rw [hruns] at hrun
  obtain ⟨before, hbefore, rfl⟩ := List.mem_map.mp hrun
  exact ⟨before, hbefore, (hchange before hbefore).1, (hchange before hbefore).2.1⟩

/-- One change after the other, where it is the lane and whether it was launched that says
who may be reached. -/
theorem trans (hfirst : Moves may sup next) (hsecond : Moves may next last)
    (hmay : ∀ run other : LaneRun, other.lane = run.lane → other.launched = run.launched →
      may other → may run) :
    Moves may sup last := by
  obtain ⟨first, hruns, hchange⟩ := hfirst.change
  obtain ⟨second, hruns', hchange'⟩ := hsecond.change
  refine ⟨⟨second ∘ first, by rw [hruns', hruns, List.map_map], fun run hrun => ?_⟩,
    hsecond.settings.trans hfirst.settings, fun hstop => hsecond.stops (hfirst.stops hstop)⟩
  have hnext : first run ∈ next.runs := hruns ▸ List.mem_map_of_mem hrun
  obtain ⟨hsame, hlaunched, hreached⟩ := hchange run hrun
  obtain ⟨hsame', hlaunched', hreached'⟩ := hchange' _ hnext
  refine ⟨hsame'.trans hsame, fun hbefore => hlaunched' (hlaunched hbefore), ?_⟩
  rcases hreached with hreached | ⟨hkept, hverdict⟩
  · exact .inl hreached
  · rcases hreached' with hreached | ⟨hkept', hverdict'⟩
    · exact .inl (hmay run _ hsame hkept hreached)
    · exact .inr ⟨hkept'.trans hkept, hverdict'.trans hverdict⟩

end Moves

namespace Batch

variable {may : LaneRun → Prop} {batch next : Batch} {core : Nat}

def AllLaunched (batch : Batch) : Prop := ∀ run ∈ batch.sup.runs, run.launched = true

/-- Only a launched lane has a duty-cycle driver. -/
def Driven (batch : Batch) : Prop :=
  ∀ core, (batch.processes core).dutyDriver = true → batch.launched core = true

/-- What the stage says of the lanes: the polls run once all were launched, and where a
failure or a stop cut the launches short, they do not run at all. -/
def Standing (batch : Batch) : Prop :=
  match batch.phase with
  | .launching rest =>
      (∀ run ∈ batch.sup.runs, run.launched = true ∨ run.lane.coreId ∈ rest) ∧
        ∀ core ∈ rest, core ∈ batch.cores
  | .entering =>
      batch.AllLaunched ∨ batch.sup.stop = true ∨ ∀ run ∈ batch.sup.runs, run.verdict.isSome = true
  | .looping => batch.AllLaunched ∨ batch.sup.stop = true
  | .starting | .ending | .terminating _ | .draining _ _ | .closing | .classing _ | .done => True
  | _ => batch.AllLaunched

structure Placed (batch : Batch) : Prop where
  distinct : batch.sup.Distinct
  alone : batch.sup.Alone
  driven : batch.Driven
  standing : batch.Standing

/-! ## The operations -/

/-- A change of the lanes and their processes that gives no lane a driver. -/
structure Touches (may : LaneRun → Prop) (batch next : Batch) : Prop where
  moves : Moves may batch.sup next.sup
  drivers : ∀ core, (next.processes core).dutyDriver = true →
    (batch.processes core).dutyDriver = true

theorem Touches.refl (may : LaneRun → Prop) (batch : Batch) : Touches may batch batch :=
  ⟨.refl may batch.sup, fun _ => id⟩

theorem Touches.trans {last : Batch} (hfirst : Touches may batch next)
    (hsecond : Touches may next last)
    (hmay : ∀ run other : LaneRun, other.lane = run.lane → other.launched = run.launched →
      may other → may run) :
    Touches may batch last :=
  ⟨hfirst.moves.trans hsecond.moves hmay, fun core hcore =>
    hfirst.drivers core (hsecond.drivers core hcore)⟩

theorem Touches.mono {other : LaneRun → Prop} (htouches : Touches may batch next)
    (himp : ∀ run ∈ batch.sup.runs, may run → other run) : Touches other batch next :=
  ⟨htouches.moves.mono himp, htouches.drivers⟩

/-- The lanes of one core are reached, whichever they are. -/
abbrev TouchesCore (core : Nat) (batch next : Batch) : Prop :=
  Touches (fun run => run.lane.coreId = core) batch next

theorem TouchesCore.then {last : Batch} (hfirst : TouchesCore core batch next)
    (hsecond : TouchesCore core next last) : TouchesCore core batch last :=
  hfirst.trans hsecond fun _ _ hlane _ hcore => (congrArg Lane.coreId hlane).symm.trans hcore

theorem touches_fail (batch : Batch) (core : Nat) (message : String) :
    TouchesCore core batch (batch.fail core message) :=
  ⟨.of_charges (charges_fail fun _ _ hcore => hcore), fun _ => id⟩

theorem touches_onProcess {change : Process → Process}
    (hdriver : ∀ process, (change process).dutyDriver = true → process.dutyDriver = true) :
    Touches may batch (batch.onProcess core change) := by
  refine ⟨.refl may batch.sup, fun other hother => ?_⟩
  by_cases hcore : other = core
  · simp only [onProcess, if_pos hcore] at hother
    exact hdriver _ hother
  · simp only [onProcess, if_neg hcore] at hother
    exact hother

/-- A change of the lanes of one core that keeps them launched. -/
theorem touches_onLane {change : LaneRun → LaneRun}
    (hkeeps : ∀ run, (change run).lane = run.lane ∧
      (run.launched = true → (change run).launched = true)) :
    TouchesCore core batch { batch with sup := batch.sup.onLane core change } :=
  ⟨.onLane hkeeps fun _ _ hcore => hcore, fun _ => id⟩

theorem touches_exited (batch : Batch) (core : Nat) (exited : LaneRun → Bool) :
    TouchesCore core batch
      { batch with
        sup := batch.sup.onLane core fun run => { run with exited := exited run } } :=
  touches_onLane fun _ => ⟨rfl, id⟩

theorem touches_stopDutyDriver (batch : Batch) (core : Nat) (fault : Option String) :
    TouchesCore core batch (batch.stopDutyDriver core fault) := by
  unfold stopDutyDriver
  split
  · have hstopped : TouchesCore core batch
        (batch.onProcess core fun process => { process with dutyDriver := false }) :=
      touches_onProcess fun process hdriver => absurd hdriver Bool.false_ne_true
    cases fault with
    | none => exact hstopped
    | some exc => exact hstopped.then (touches_fail _ core _)
  · exact .refl _ batch

theorem touches_terminateRun (batch : Batch) (core : Nat) (teardown : Teardown) :
    TouchesCore core batch (batch.terminateRun core teardown) := by
  have hduty := touches_stopDutyDriver batch core teardown.dutyFault
  unfold terminateRun
  generalize batch.stopDutyDriver core teardown.dutyFault = stopped at hduty
  by_cases hskip : (!stopped.launched core || (stopped.processes core).torn) = true
  · simp only [hskip, if_true]
    exact hduty
  · simp only [hskip]
    cases teardown.fault with
    | some exc => exact hduty.then (touches_fail stopped core _)
    | none =>
        -- the leader is waited for, and what is left of it is a failure
        have hended : TouchesCore core stopped
            (stopped.onProcess core (stopped.terminated teardown)) :=
          touches_onProcess fun process hdriver => hdriver
        have hexited := hduty.then (hended.then (touches_exited _ core fun run =>
          run.exited || ((stopped.onProcess core (stopped.terminated teardown)).processes
            core).returnCode.isSome))
        by_cases hover : (((stopped.onProcess core (stopped.terminated teardown)).processes
            core).torn && ((stopped.onProcess core (stopped.terminated teardown)).processes
            core).returnCode.isSome) = true
        · simp only [hover, if_true]
          exact hexited
        · simp only [hover]
          exact hexited.then (touches_fail _ core _)

/-- A lane that was not launched has nothing to tear down. -/
theorem terminateRun_unlaunched (hdriven : batch.Driven) (hnot : batch.launched core = false)
    (teardown : Teardown) : batch.terminateRun core teardown = batch := by
  have hdriver : (batch.processes core).dutyDriver = false := by
    rw [← Bool.not_eq_true]
    intro hdriver
    rw [hdriven core hdriver] at hnot
    cases hnot
  have hduty : batch.stopDutyDriver core teardown.dutyFault = batch := by
    rw [stopDutyDriver, if_neg (by rw [hdriver]; decide)]
  rw [terminateRun, hduty, if_pos (by rw [hnot]; rfl)]

theorem touches_drain (batch : Batch) (core : Nat) (capture : Capture) :
    TouchesCore core batch (batch.drain core capture) := by
  cases capture with
  | read stdout stderr =>
      rw [drain]
      exact touches_onProcess fun _ hdriver => hdriver
  | failed exc =>
      rw [drain]
      split
      · exact touches_fail batch core _
      · exact .refl _ batch

theorem touches_classify (classes : CharClasses) (batch : Batch) (core : Nat)
    (results : ResultsFile) (elapsed : ℚ) (interrupted : Bool) :
    TouchesCore core batch (batch.classify classes core results elapsed interrupted) := by
  have hruntime : TouchesCore core batch
      (batch.onProcess core fun process => { process with runtime := elapsed }) :=
    touches_onProcess fun _ => id
  have hverdict (before : Batch) (verdict : Option StressResult) : TouchesCore core before
      { before with sup := before.sup.onLane core fun run => { run with verdict } } :=
    touches_onLane fun _ => ⟨rfl, id⟩
  have hclassed := hruntime.then (hverdict _ (Supervisor.classifyCompleted core
    (batch.completion classes core results elapsed) interrupted))
  exact ⟨hclassed.moves, hclassed.drivers⟩

/-! ## The stages -/

theorem launched_iff : batch.launched core = true ↔
    ∃ run ∈ batch.sup.runs, run.lane.coreId = core ∧ run.launched = true := by
  simp [launched, has]

/-- Whatever names the core of a launched lane reaches launched lanes only. -/
theorem TouchesCore.launched (htouches : TouchesCore core batch next)
    (hdistinct : batch.sup.Distinct) (hlaunched : batch.launched core = true) :
    Touches (fun run => run.launched = true) batch next := by
  obtain ⟨run, hrun, hcore, hstarted⟩ := launched_iff.mp hlaunched
  apply htouches.mono
  intro other hother hsame
  rw [hdistinct.eq hother hrun (hsame.trans hcore.symm)]
  exact hstarted

theorem touches_terminate (hdistinct : batch.sup.Distinct) (hdriven : batch.Driven) (core : Nat)
    (teardown : Teardown) :
    Touches (fun run => run.launched = true) batch (batch.terminateRun core teardown) := by
  by_cases hlaunched : batch.launched core = true
  · exact (touches_terminateRun batch core teardown).launched hdistinct hlaunched
  · rw [terminateRun_unlaunched hdriven (Bool.eq_false_iff.mpr hlaunched)]
    exact .refl _ batch

/-- The stages of the loop find every lane launched. -/
theorem Touches.of_allLaunched {other : LaneRun → Prop} (hall : batch.AllLaunched)
    (htouches : Touches other batch next) :
    Touches (fun run => run.launched = true) batch next :=
  htouches.mono fun run hrun _ => hall run hrun

theorem touches_charge {other : LaneRun → Prop} {sup : Supervisor} {observed : List MCEEvent}
    (hcharges : Charges other { batch.sup with observed } sup) :
    Touches other batch (batch.charge sup) := by
  have hmoves := Moves.of_charges hcharges
  exact ⟨⟨hmoves.change, hmoves.settings, hmoves.stops⟩, fun _ => id⟩

/-- The lanes of a stage, whatever else it notes. -/
theorem Touches.congr {last : Batch} (htouches : Touches may batch next)
    (hsup : last.sup = next.sup) (hprocesses : last.processes = next.processes) :
    Touches may batch last := by
  refine ⟨hsup ▸ htouches.moves, fun core hdriver => htouches.drivers core ?_⟩
  rwa [hprocesses] at hdriver

/-- Besides the launched lanes, the event reaches at most those that it may. -/
def Reaches (may : LaneRun → Prop) (batch : Batch) : SupervisionEvent → Prop
  | .checkThermal reading => batch.phase = .starting →
      reading = .safe ∨ ∀ run ∈ batch.sup.runs, run.verdict.isNone = true → may run
  | .launch outcome => ∀ core rest, batch.phase = .launching (core :: rest) →
      (batch.sup.stop = true ∧ outcome.checksStop = true) ∨
        ∀ run ∈ batch.sup.runs, run.lane.coreId = core → may run
  | .readKernel read => batch.phase = .closing →
      Moves may batch.sup (batch.sup.applyMceEvents read true).2
  | _ => True

/-- In the loop, a poll reaches launched lanes only. -/
theorem touches_poll {other : LaneRun → Prop} (hall : batch.AllLaunched) {sup : Supervisor}
    {observed : List MCEEvent} (hcharges : Charges other { batch.sup with observed } sup) :
    Touches (fun run => run.launched = true) batch (batch.charge sup) :=
  .of_allLaunched hall (touches_charge hcharges)

theorem moves_launch (batch : Batch) (core : Nat) (rest : List Nat) (outcome : Launch)
    (hreaches : (batch.sup.stop = true ∧ outcome.checksStop = true) ∨
      ∀ run ∈ batch.sup.runs, run.lane.coreId = core → may run) :
    Moves may batch.sup (batch.launch core rest outcome).sup := by
  have hstart (contained dutyDriver : Bool) : Moves (fun run => run.lane.coreId = core) batch.sup
      (batch.sup.onLane core fun run => { run with launched := true }) :=
    .onLane (fun run => ⟨rfl, fun _ => rfl⟩) fun _ _ hcore => hcore
  have hfail (message : String) :
      Moves (fun run => run.lane.coreId = core) batch.sup (batch.fail core message).sup :=
    (touches_fail batch core message).moves
  rcases hreaches with ⟨hstop, hchecks⟩ | hmay
  · cases outcome with
    | captureFailed exc => cases hchecks
    | refused exc => cases hchecks
    | started contained dutyDriver =>
        rw [launch, if_pos hstop]
        exact .refl may batch.sup
    | dutyFailed contained dutyDriver exc =>
        rw [launch, if_pos hstop]
        exact .refl may batch.sup
  · suffices hcore : Moves (fun run => run.lane.coreId = core) batch.sup
        (batch.launch core rest outcome).sup from hcore.mono hmay
    cases outcome with
    | captureFailed exc => exact hfail _
    | refused exc => exact hfail _
    | started contained dutyDriver =>
        rw [launch]
        split
        · exact .refl _ batch.sup
        · exact hstart contained dutyDriver
    | dutyFailed contained dutyDriver exc =>
        rw [launch]
        split
        · exact .refl _ batch.sup
        · refine (hstart contained dutyDriver).trans
            (.of_charges (charges_fail fun _ _ hcore => hcore)) fun _ _ hlane _ hcore => ?_
          exact (congrArg Lane.coreId hlane).symm.trans hcore

theorem touches_pollExit (hdistinct : batch.sup.Distinct) (core : Nat) (rest : List Nat)
    (exit : Option Int) (dutyFault : Option String) :
    Touches (fun run => run.launched = true) batch (batch.pollExit core rest exit dutyFault) := by
  rw [pollExit]
  split
  · rename_i hlane
    have hlaunched : batch.launched core = true := by
      obtain ⟨run, hrun, hcore⟩ := List.any_eq_true.mp hlane
      simp only [Bool.and_eq_true, decide_eq_true_eq] at hcore
      exact launched_iff.mpr ⟨run, hrun, hcore.1, hcore.2.2⟩
    split
    · exact .congr (.refl _ batch) rfl rfl
    · rename_i returnCode _
      have hpolled : TouchesCore core batch
          ((batch.stopDutyDriver core dutyFault).onProcess core fun process =>
            { process with returnCode := some returnCode }) :=
        (touches_stopDutyDriver batch core dutyFault).then
          (touches_onProcess fun _ hdriver => hdriver)
      have hexited := hpolled.then (touches_exited _ core fun _ => true)
      exact (hexited.launched hdistinct hlaunched).congr rfl rfl
  · exact .congr (.refl _ batch) rfl rfl

theorem touches_classifyExited (classes : CharClasses) (hall : batch.AllLaunched) (core : Nat)
    (rest : List Nat) (results : ResultsFile) :
    Touches (fun run => run.launched = true) batch
      (batch.classifyExited classes core rest results) := by
  rw [classifyExited]
  by_cases hnone : batch.has core (·.verdict.isNone) = true
  · simp only [hnone, if_true]
    exact (Touches.of_allLaunched hall
      (touches_classify classes batch core results batch.now false)).congr rfl rfl
  · simp only [hnone]
    exact .congr (.refl _ batch) rfl rfl

theorem touches_classifyLane (classes : CharClasses) (hdistinct : batch.sup.Distinct)
    (core : Nat) (results : ResultsFile) :
    Touches (fun run => run.launched = true) batch (batch.classifyLane classes core results) := by
  rw [classifyLane]
  split
  · rename_i hlane
    have hlaunched : batch.launched core = true := by
      obtain ⟨run, hrun, hcore⟩ := List.any_eq_true.mp hlane
      simp only [Bool.and_eq_true, decide_eq_true_eq] at hcore
      exact launched_iff.mpr ⟨run, hrun, hcore.1, hcore.2.1⟩
    exact (touches_classify classes batch core results _ _).launched hdistinct hlaunched
  · exact .refl _ batch

theorem touches_readErrors (classes : CharClasses) (hdistinct : batch.sup.Distinct)
    (hall : batch.AllLaunched) (results : Nat → ResultsFile) :
    Touches (fun run => run.launched = true) batch (batch.readErrors classes results) := by
  rw [readErrors]
  split
  · exact (Touches.of_allLaunched hall
      (touches_charge (charges_pollBackendErrors hdistinct _))).congr rfl rfl
  · exact .congr (.refl _ batch) rfl rfl

/-- A stage that gives no lane a driver. -/
theorem Touches.driven (htouches : Touches may batch next) (hdriven : batch.Driven) :
    next.Driven := by
  intro core hdriver
  obtain ⟨run, hrun, hcore, hlaunched⟩ :=
    launched_iff.mp (hdriven core (htouches.drivers core hdriver))
  obtain ⟨change, hruns, hchange⟩ := htouches.moves.change
  obtain ⟨hlane, hstays, -⟩ := hchange run hrun
  refine launched_iff.mpr ⟨change run, hruns ▸ List.mem_map_of_mem hrun, ?_, hstays hlaunched⟩
  rw [hlane, hcore]

/-- A lane gets its driver as it is launched. -/
theorem driven_launch (hdriven : batch.Driven) {core : Nat} {rest : List Nat}
    (hcore : core ∈ batch.cores) (outcome : Launch) :
    (batch.launch core rest outcome).Driven := by
  have hfail (message : String) : Driven { batch.fail core message with phase := .entering } :=
    ((touches_fail batch core message).congr rfl rfl).driven hdriven
  have hstart (contained dutyDriver : Bool) {next : Batch}
      (hsup : next.sup = batch.sup.onLane core fun run => { run with launched := true })
      (hprocesses : next.processes = (batch.onProcess core fun process =>
        { process with contained, dutyDriver }).processes) : next.Driven := by
    intro other hdriver
    rw [launched_iff, hsup]
    by_cases hsame : other = core
    · obtain ⟨run, hrun, rfl⟩ := List.mem_map.mp hcore
      exact ⟨_, List.mem_map_of_mem hrun, by rw [if_pos rfl, hsame], by rw [if_pos rfl]⟩
    · rw [hprocesses] at hdriver
      simp only [onProcess, if_neg hsame] at hdriver
      obtain ⟨run, hrun, hrunCore, hlaunched⟩ := launched_iff.mp (hdriven other hdriver)
      refine ⟨_, List.mem_map_of_mem hrun, ?_, ?_⟩ <;>
        rw [if_neg (fun heq => hsame (hrunCore.symm.trans heq))] <;> assumption
  cases outcome with
  | captureFailed exc => exact hfail _
  | refused exc => exact hfail _
  | started contained dutyDriver =>
      rw [launch]
      split
      · exact ((Touches.refl (fun _ => True) batch).congr rfl rfl).driven hdriven
      · exact hstart contained dutyDriver rfl rfl
  | dutyFailed contained dutyDriver exc =>
      rw [launch]
      split
      · exact ((Touches.refl (fun _ => True) batch).congr rfl rfl).driven hdriven
      · let started : Batch :=
          { batch.onProcess core fun process => { process with contained, dutyDriver } with
            sup := batch.sup.onLane core fun run => { run with launched := true } }
        have hstarted : started.Driven := hstart contained dutyDriver rfl rfl
        exact ((touches_fail started core _).congr rfl rfl).driven hstarted

/-- What the stage at hand says of the lanes. -/
theorem Placed.standing_at (hplaced : batch.Placed) {phase : Phase}
    (hphase : batch.phase = phase) : Standing { batch with phase } := by
  rw [← hphase]
  exact hplaced.standing

/-- A stop that is forced reaches the lane if it was launched, and asks the run to stop. -/
theorem touches_forceTeardown (hplaced : batch.Placed)
    (hmay : ∀ run : LaneRun, run.launched = true → may run) (core : Nat) (teardown : Teardown) :
    Touches may batch
      (terminateRun { batch with sup := { batch.sup with stop := true } } core teardown) := by
  have htorn : Touches (fun run => run.launched = true)
      { batch with sup := { batch.sup with stop := true } }
      (terminateRun { batch with sup := { batch.sup with stop := true } } core teardown) := by
    apply touches_terminate
    · exact hplaced.distinct
    · exact hplaced.driven
  exact ⟨⟨(htorn.moves.mono fun run _ => hmay run).change, htorn.moves.settings,
    fun _ => htorn.moves.stops rfl⟩, htorn.drivers⟩

/-- The check in front of the launches charges nobody if the reading is safe. -/
theorem touches_checkStart (hplaced : batch.Placed) {reading : Thermal}
    (hreaches : reading = .safe ∨ ∀ run ∈ batch.sup.runs, run.verdict.isNone = true → may run) :
    Touches may batch (batch.charge (batch.sup.thermalFailed reading true).2) := by
  rcases hreaches with rfl | hnone
  · exact .congr (.refl may batch) rfl rfl
  · exact (touches_charge (charges_thermalFailed hplaced.distinct reading true)).mono hnone

/-- A lane that was never launched has no output to drain. -/
theorem touches_drainLane (hplaced : batch.Placed) (core : Nat) (capture : Capture) :
    Touches (fun run => run.launched = true) batch
      (if batch.launched core then batch.drain core capture else batch) := by
  split
  · rename_i hcore
    exact (touches_drain batch core capture).launched hplaced.distinct hcore
  · exact .refl _ batch

/-- **What a stage reaches**: launched lanes, and what a failed start, the thermal check
before the start and the closing read of the kernel log reach besides. -/
theorem touches_step {classes : CharClasses} {event : SupervisionEvent}
    (hplaced : batch.Placed) (hmay : ∀ run : LaneRun, run.launched = true → may run)
    (hreaches : batch.Reaches may event) (hnotLaunch : ∀ outcome, event ≠ .launch outcome)
    (hstep : batch.step classes event = some next) : Touches may batch next := by
  have hdistinct := hplaced.distinct
  -- A launched lane may be reached, so it is enough to reach no others.
  have hlaunched {last next : Batch}
      (htouches : Touches (fun run => run.launched = true) batch last)
      (hsup : next.sup = last.sup) (hprocesses : next.processes = last.processes) :
      Touches may batch next :=
    (htouches.mono fun run _ => hmay run).congr hsup hprocesses
  cases stage_of_step hstep with
  | launch core rest outcome hphase => exact absurd rfl (hnotLaunch outcome)
  | wait seconds hforward => exact .congr (.refl may batch) rfl rfl
  | requestStop => exact ⟨(Moves.refl may batch.sup).stop, fun _ => id⟩
  | forceTeardown core teardown hopen => exact touches_forceTeardown hplaced hmay core teardown
  | checkStart reading hphase => exact (touches_checkStart hplaced (hreaches hphase)).congr rfl rfl
  | readThermal reading hphase =>
      have hall : batch.AllLaunched := hplaced.standing_at hphase
      exact hlaunched (touches_poll hall (charges_thermalFailed hdistinct reading false)) rfl rfl
  | readKernel read hphase =>
      have hall : batch.AllLaunched := hplaced.standing_at hphase
      exact hlaunched (touches_poll hall (charges_applyMceEvents hdistinct read false)) rfl rfl
  | closeKernel read hphase => exact ⟨hreaches hphase, fun _ => id⟩
  | readErrors results hphase =>
      have hall : batch.AllLaunched := hplaced.standing_at hphase
      exact hlaunched (touches_readErrors classes hdistinct hall results) rfl rfl
  | pollExit core rest exit dutyFault hphase =>
      exact hlaunched (touches_pollExit hdistinct core rest exit dutyFault) rfl rfl
  | pollContainment fault hphase =>
      have hall : batch.AllLaunched := hplaced.standing_at hphase
      exact hlaunched (touches_poll hall (charges_pollContainment hdistinct fault)) rfl rfl
  | pollStalls stalled hphase =>
      have hall : batch.AllLaunched := hplaced.standing_at hphase
      exact hlaunched (touches_poll hall (charges_pollStalls hdistinct stalled)) rfl rfl
  | stopExited core rest teardown hphase =>
      exact hlaunched (touches_terminate hdistinct hplaced.driven core teardown) rfl rfl
  | stopLane core rest teardown hphase =>
      exact hlaunched (touches_terminate hdistinct hplaced.driven core teardown) rfl rfl
  | drainExited core rest capture hphase =>
      have hall : batch.AllLaunched := hplaced.standing_at hphase
      exact hlaunched (.of_allLaunched hall (touches_drain batch core capture)) rfl rfl
  | drainLane core rest capture hphase =>
      exact hlaunched (touches_drainLane hplaced core capture) rfl rfl
  | classifyExited core rest results hphase =>
      have hall : batch.AllLaunched := hplaced.standing_at hphase
      exact hlaunched (touches_classifyExited classes hall core rest results) rfl rfl
  | classifyLane core rest results hphase =>
      exact hlaunched (touches_classifyLane classes hdistinct core results) rfl rfl
  | proceed honset => cases honset <;> exact .congr (.refl may batch) rfl rfl

/-- A lane is started only where the event may reach it. -/
theorem moves_step {classes : CharClasses} {event : SupervisionEvent}
    (hplaced : batch.Placed) (hmay : ∀ run : LaneRun, run.launched = true → may run)
    (hreaches : batch.Reaches may event) (hstep : batch.step classes event = some next) :
    Moves may batch.sup next.sup := by
  by_cases hlaunch : ∃ outcome, event = .launch outcome
  · obtain ⟨outcome, rfl⟩ := hlaunch
    cases stage_of_step hstep with
    | launch core rest outcome hphase =>
        exact moves_launch batch core rest outcome (hreaches core rest hphase)
  · exact (touches_step hplaced hmay hreaches (fun outcome heq => hlaunch ⟨outcome, heq⟩)
      hstep).moves

/-! ## Where the lanes stand -/

theorem allLaunched_of_moves (hmoves : Moves may batch.sup next.sup) (hall : batch.AllLaunched) :
    next.AllLaunched := by
  intro run hrun
  obtain ⟨before, hbefore, -, hstays⟩ := hmoves.of_mem hrun
  exact hstays (hall before hbefore)

theorem cores_of_moves (hmoves : Moves may batch.sup next.sup) : next.cores = batch.cores := by
  have hcores := congrArg (List.map Lane.coreId) hmoves.lanes
  rwa [List.map_map, List.map_map] at hcores

/-- Past the launches, it is enough that all lanes were launched. -/
theorem standing_of_allLaunched (hall : batch.AllLaunched)
    (hphase : ∀ rest, batch.phase ≠ .launching rest) : batch.Standing := by
  unfold Standing
  split
  · rename_i rest hlaunching
    exact absurd hlaunching (hphase rest)
  · exact .inl hall
  · exact .inl hall
  all_goals trivial

/-- What happens beside the run keeps its stage, and leaves the lanes alone or stops the
run. -/
theorem Standing.keep (hstanding : batch.Standing) (hmoves : Moves may batch.sup next.sup)
    (hphase : next.phase = batch.phase)
    (hstop : next.sup.stop = true ∨ next.sup = batch.sup) : next.Standing := by
  have hall := allLaunched_of_moves hmoves
  unfold Standing at hstanding ⊢
  rw [hphase]
  split at hstanding
  · obtain ⟨hlanes, hcores⟩ := hstanding
    constructor
    · intro run hrun
      obtain ⟨before, hbefore, hlane, hstays⟩ := hmoves.of_mem hrun
      rw [hlane]
      exact (hlanes before hbefore).imp_left hstays
    · rwa [cores_of_moves hmoves]
  · rcases hstop with hstop | hsup
    · exact .inr (.inl hstop)
    · rw [AllLaunched, hsup]
      exact hstanding
  · rcases hstop with hstop | hsup
    · exact .inr hstop
    · rw [AllLaunched, hsup]
      exact hstanding
  all_goals first | trivial | exact hall hstanding

theorem reaches_any (hdistinct : batch.sup.Distinct) (event : SupervisionEvent) :
    batch.Reaches (fun _ => True) event := by
  cases event with
  | checkThermal reading => exact fun _ => .inr fun _ _ _ => trivial
  | launch outcome => exact fun _ _ _ => .inr fun _ _ _ => trivial
  | readKernel read =>
      have hmoves := Moves.of_charges (charges_applyMceEvents hdistinct read true)
      exact fun _ => ⟨(hmoves.mono fun _ _ _ => trivial).change, hmoves.settings, hmoves.stops⟩
  | _ => trivial

/-- A failed start, or a stop before one, is the end of the launches. -/
theorem standing_entering {sup : Supervisor} (hsettled : sup.Settled)
    (hsup : batch.sup = sup) (hphase : batch.phase = .entering) : batch.Standing := by
  unfold Standing
  rw [hphase, hsup]
  exact .inr hsettled

/-- The lanes after a start: all but the rest are launched, or the launches are over. -/
theorem standing_launch (halone : batch.sup.Alone) {core : Nat} {rest : List Nat}
    (hlanes : ∀ run ∈ batch.sup.runs, run.launched = true ∨ run.lane.coreId ∈ core :: rest)
    (hcores : ∀ other ∈ core :: rest, other ∈ batch.cores) (outcome : Launch) :
    (batch.launch core rest outcome).Standing := by
  have hlane : ∃ run ∈ batch.sup.runs, run.lane.coreId = core :=
    List.mem_map.mp (hcores core List.mem_cons_self)
  let launched := batch.sup.onLane core fun run => { run with launched := true }
  have hmoves : Moves (fun run => run.lane.coreId = core) batch.sup launched :=
    .onLane (fun run => ⟨rfl, fun _ => rfl⟩) fun _ _ hcore => hcore
  cases outcome with
  | captureFailed exc => exact standing_entering (settled_fail halone hlane) rfl rfl
  | refused exc => exact standing_entering (settled_fail halone hlane) rfl rfl
  | started contained dutyDriver =>
      rw [launch]
      split
      · rename_i hstop
        exact standing_entering (.inl hstop) rfl rfl
      · constructor
        · intro run hrun
          obtain ⟨before, hbefore, rfl⟩ := List.mem_map.mp hrun
          by_cases hcore : before.lane.coreId = core
          · rw [if_pos hcore]
            exact .inl rfl
          · rw [if_neg hcore]
            exact (hlanes before hbefore).imp_right fun hmem =>
              (List.mem_cons.mp hmem).resolve_left hcore
        · intro other hother
          have hmoved : Moves (fun run => run.lane.coreId = core) batch.sup
              { batch with sup := launched }.sup := hmoves
          show other ∈ Batch.cores { batch with sup := launched }
          rw [cores_of_moves hmoved]
          exact hcores other (List.mem_cons_of_mem _ hother)
  | dutyFailed contained dutyDriver exc =>
      rw [launch]
      split
      · rename_i hstop
        exact standing_entering (.inl hstop) rfl rfl
      · obtain ⟨run, hrun, hcore⟩ := hlane
        have hstarted : ∃ run ∈ launched.runs, run.lane.coreId = core :=
          ⟨_, List.mem_map_of_mem hrun, by rw [if_pos hcore]; exact hcore⟩
        exact standing_entering (settled_fail (hmoves.alone halone) hstarted) rfl rfl

/-- The loop is entered with a lane running, which has no verdict yet. -/
theorem standing_enter
    (hsettled : batch.AllLaunched ∨ batch.sup.stop = true ∨
      ∀ run ∈ batch.sup.runs, run.verdict.isSome = true)
    (hsup : next.sup = batch.sup)
    (hphase : next.phase = if batch.sup.runs.any LaneRun.running then .looping else .ending) :
    next.Standing := by
  unfold Standing
  rw [hphase]
  by_cases hrunning : batch.sup.runs.any LaneRun.running = true
  · rw [if_pos hrunning, AllLaunched, hsup]
    rcases hsettled with hall | hstop | hverdicts
    · exact .inl hall
    · exact .inr hstop
    · obtain ⟨run, hrun, hrunning⟩ := List.any_eq_true.mp hrunning
      simp only [LaneRun.running, Bool.and_eq_true, Option.isNone_iff_eq_none] at hrunning
      have hsome := hverdicts run hrun
      rw [hrunning.1.1] at hsome
      cases hsome
  · rw [if_neg hrunning]
    trivial

/-- The polls are taken up again unless the run is to stop. -/
theorem standing_loop (hstanding : batch.AllLaunched ∨ batch.sup.stop = true)
    (hsup : next.sup = batch.sup)
    (hphase : next.phase = if batch.sup.stop then .ending else .readingThermal) :
    next.Standing := by
  unfold Standing
  rw [hphase]
  by_cases hstop : batch.sup.stop = true
  · rw [if_pos hstop]
    trivial
  · rw [if_neg hstop, AllLaunched, hsup]
    exact hstanding.resolve_right hstop

theorem phase_stopDutyDriver {core : Nat} {fault : Option String} :
    (batch.stopDutyDriver core fault).phase = batch.phase := by
  unfold stopDutyDriver
  split
  · cases fault <;> rfl
  · rfl

theorem phase_terminateRun {core : Nat} {teardown : Teardown} :
    (batch.terminateRun core teardown).phase = batch.phase := by
  have hduty : (batch.stopDutyDriver core teardown.dutyFault).phase = batch.phase :=
    phase_stopDutyDriver
  rw [← hduty]
  unfold terminateRun
  generalize batch.stopDutyDriver core teardown.dutyFault = stopped
  dsimp only
  split
  · rfl
  · cases teardown.fault with
    | some exc => rfl
    | none =>
        dsimp only
        split <;> rfl

theorem phase_pollExit {core : Nat} {rest left : List Nat} {exit : Option Int}
    {dutyFault : Option String} : (batch.pollExit core rest exit dutyFault).phase ≠ .launching left := by
  unfold pollExit
  split
  · split <;> exact Phase.noConfusion
  · exact Phase.noConfusion

theorem phase_classifyExited {classes : CharClasses} {core : Nat} {rest left : List Nat}
    {results : ResultsFile} :
    (batch.classifyExited classes core rest results).phase ≠ .launching left := by
  unfold classifyExited
  dsimp only
  split_ifs <;> exact Phase.noConfusion

theorem phase_readErrors {classes : CharClasses} {results : Nat → ResultsFile} {left : List Nat} :
    (batch.readErrors classes results).phase ≠ .launching left := by
  unfold readErrors
  dsimp only
  split
  · dsimp only
    split_ifs <;> exact Phase.noConfusion
  · exact Phase.noConfusion

/-- A poll leads on or to the end, and to the launches in neither case. -/
theorem ite_ne_launching {ends : Prop} [Decidable ends] {first second : Phase}
    (hfirst : ∀ rest, first ≠ .launching rest) (hsecond : ∀ rest, second ≠ .launching rest)
    (rest : List Nat) : (if ends then first else second) ≠ .launching rest := by
  split
  · exact hfirst rest
  · exact hsecond rest

/-- Where the run goes on without observing anything, the lanes stand as the next stage asks. -/
theorem standing_onset (hplaced : batch.Placed) (honset : Onset batch next) : next.Standing := by
  have hloop (hall : batch.AllLaunched) (hsup : next.sup = batch.sup)
      (hphase : ∀ rest, next.phase ≠ .launching rest) : next.Standing :=
    standing_of_allLaunched (by rwa [AllLaunched, hsup]) hphase
  cases honset with
  | enter hphase =>
      have hstanding := hplaced.standing_at hphase
      exact .inl fun run hrun => (hstanding.1 run hrun).resolve_right List.not_mem_nil
  | loop hphase => exact standing_enter (hplaced.standing_at hphase) rfl rfl
  | poll hphase => exact standing_loop (hplaced.standing_at hphase) rfl rfl
  | exitsPolled hphase => exact hloop (hplaced.standing_at hphase) rfl fun _ => Phase.noConfusion
  | running hphase =>
      exact hloop (hplaced.standing_at hphase) rfl
        (ite_ne_launching (fun _ => Phase.noConfusion) fun _ => Phase.noConfusion)
  | deadline hphase =>
      exact hloop (hplaced.standing_at hphase) rfl
        (ite_ne_launching (fun _ => Phase.noConfusion) fun _ => Phase.noConfusion)
  | ending hphase => trivial
  | terminated hphase => trivial
  | classed hphase => trivial

/-- The launches begin with all lanes to launch, unless the machine is hot. -/
theorem standing_checkStart {reading : Thermal} :
    Standing { batch.charge (batch.sup.thermalFailed reading true).2 with
      phase := if (batch.sup.thermalFailed reading true).1 then .done
        else .launching batch.cores } := by
  cases reading with
  | safe => exact ⟨fun run hrun => .inr (List.mem_map_of_mem hrun), fun core hcore => hcore⟩
  | exceeded => trivial
  | lost => trivial

theorem standing_step {classes : CharClasses} {event : SupervisionEvent} (hplaced : batch.Placed)
    (hmoves : Moves may batch.sup next.sup) (hstep : batch.step classes event = some next) :
    next.Standing := by
  have hstanding := hplaced.standing
  -- a stage of the loop that does not lead back to the launches
  have hloop (hall : batch.AllLaunched) (hphase : ∀ rest, next.phase ≠ .launching rest) :
      next.Standing := standing_of_allLaunched (allLaunched_of_moves hmoves hall) hphase
  cases stage_of_step hstep with
  | wait seconds hforward => exact hstanding.keep hmoves rfl (.inr rfl)
  | requestStop => exact hstanding.keep hmoves rfl (.inl rfl)
  | forceTeardown core teardown hopen =>
      have hstop := (touches_terminateRun
        { batch with sup := { batch.sup with stop := true } } core teardown).moves.stops rfl
      exact hstanding.keep hmoves phase_terminateRun (.inl hstop)
  | checkStart reading hphase => exact standing_checkStart
  | launch core rest outcome hphase =>
      obtain ⟨hlanes, hcores⟩ := hplaced.standing_at hphase
      exact standing_launch hplaced.alone hlanes hcores outcome
  | readErrors results hphase =>
      exact hloop (hplaced.standing_at hphase) fun rest => phase_readErrors
  | pollExit core rest exit dutyFault hphase =>
      exact hloop (hplaced.standing_at hphase) fun rest => phase_pollExit
  | classifyExited core rest results hphase =>
      exact hloop (hplaced.standing_at hphase) fun rest => phase_classifyExited
  | stopExited core rest teardown hphase =>
      exact hloop (hplaced.standing_at hphase) fun rest => Phase.noConfusion
  | drainExited core rest capture hphase =>
      exact hloop (hplaced.standing_at hphase) fun rest => Phase.noConfusion
  | readThermal reading hphase =>
      exact hloop (hplaced.standing_at hphase)
        (ite_ne_launching (fun _ => Phase.noConfusion) fun _ => Phase.noConfusion)
  | readKernel read hphase =>
      exact hloop (hplaced.standing_at hphase)
        (ite_ne_launching (fun _ => Phase.noConfusion) fun _ => Phase.noConfusion)
  | pollContainment fault hphase =>
      exact hloop (hplaced.standing_at hphase)
        (ite_ne_launching (fun _ => Phase.noConfusion) fun _ => Phase.noConfusion)
  | pollStalls stalled hphase =>
      exact hloop (hplaced.standing_at hphase)
        (ite_ne_launching (fun _ => Phase.noConfusion) fun _ => Phase.noConfusion)
  | closeKernel read hphase => trivial
  | stopLane core rest teardown hphase => trivial
  | drainLane core rest capture hphase => trivial
  | classifyLane core rest results hphase => trivial
  | proceed honset => exact standing_onset hplaced honset

/-- A driver belongs to a lane that was launched. -/
theorem driven_step {classes : CharClasses} {event : SupervisionEvent} (hplaced : batch.Placed)
    (hstep : batch.step classes event = some next) : next.Driven := by
  by_cases hlaunch : ∃ outcome, event = .launch outcome
  · obtain ⟨outcome, rfl⟩ := hlaunch
    cases stage_of_step hstep with
    | launch core rest outcome hphase =>
        have hcores := (hplaced.standing_at hphase).2
        exact driven_launch hplaced.driven (hcores core List.mem_cons_self) outcome
  · exact (touches_step hplaced (fun _ _ => trivial) (reaches_any hplaced.distinct event)
      (fun outcome heq => hlaunch ⟨outcome, heq⟩) hstep).driven hplaced.driven

/-- **Every stage keeps the lanes in their place.** -/
theorem placed_step {classes : CharClasses} {event : SupervisionEvent} (hplaced : batch.Placed)
    (hstep : batch.step classes event = some next) : next.Placed := by
  have hmoves : Moves (fun _ => True) batch.sup next.sup :=
    moves_step hplaced (fun _ _ => trivial) (reaches_any hplaced.distinct event) hstep
  exact ⟨hmoves.distinct hplaced.distinct, hmoves.alone hplaced.alone,
    driven_step hplaced hstep, standing_step hplaced hmoves hstep⟩

end Batch

end Engine
end CoreCycler
