import CoreCycler.Engine.LaneLedger

/-!
# No pass is invented

A lane passes only if its process ran to the deadline and the supervisor's own signals ended
it.  Three things may fake this: a leader that was killed by somebody else on the signal that
the teardown then sends to what is left of its group, a failing exit that ends the loop before
the deadline without stopping the run, and a lane that another thread has stopped early and the
loop finds over.  In a run without them (`Candid`) every verdict is honest
(`honest_of_reachable`).
-/

namespace CoreCycler
namespace Engine

open Library Supervisor

namespace Batch

variable {may : LaneRun → Prop} {batch next : Batch} {core : Nat}

/-! ## Candid steps -/

/-- The lane of the core was not stopped before the deadline by another thread, as long as it
has no verdict. -/
def InTime (batch : Batch) (core : Nat) : Prop :=
  ∀ run ∈ batch.sup.runs, run.lane.coreId = core → run.launched = true → run.verdict = none →
    (batch.processes core).Timely batch.duration

/-- The deadline has passed, and no lane without a verdict was stopped before it. -/
def OnTime (batch : Batch) : Prop :=
  ∀ run ∈ batch.sup.runs, run.launched = true → run.verdict = none →
    batch.duration ≤ batch.clock ∧ (batch.processes run.lane.coreId).Timely batch.duration

/-- The core whose exit is polled next. -/
def polled : Phase → Option Nat
  | .pollingExits (core :: _) => some core
  | _ => none

/-- A step that lets no end of a process pass for the supervisor's own, in time. -/
def Candid (batch : Batch) : SupervisionEvent → Prop
  | .forceTeardown core teardown => batch.EndsFairly core teardown
  | .terminate teardown => ∀ core ∈ batch.phase.stopping, batch.EndsFairly core teardown
  | .pollExit _ _ => ∀ core ∈ polled batch.phase, batch.InTime core
  | .proceed => batch.phase = .ending →
      batch.sup.stop = true ∧ batch.clock < batch.duration ∨ batch.OnTime
  | _ => True

instance (duration : ℚ) (process : Process) : Decidable (process.Timely duration) :=
  inferInstanceAs (Decidable (_ → _))

instance (batch : Batch) (core : Nat) (teardown : Teardown) :
    Decidable (batch.EndsFairly core teardown) :=
  have : Decidable (batch.LeaderFirst core teardown) := inferInstanceAs (Decidable (_ → _))
  inferInstanceAs (Decidable (∀ run ∈ batch.sup.runs, _))

instance (batch : Batch) (event : SupervisionEvent) : Decidable (batch.Candid event) :=
  have (core : Nat) : Decidable (batch.InTime core) :=
    inferInstanceAs (Decidable (∀ run ∈ batch.sup.runs, _))
  have : Decidable batch.OnTime := inferInstanceAs (Decidable (∀ run ∈ batch.sup.runs, _))
  match event with
  | .forceTeardown core teardown => inferInstanceAs (Decidable (batch.EndsFairly core teardown))
  | .terminate teardown =>
      inferInstanceAs (Decidable (∀ core ∈ batch.phase.stopping, batch.EndsFairly core teardown))
  | .pollExit _ _ =>
      inferInstanceAs (Decidable (∀ core ∈ polled batch.phase, batch.InTime core))
  | .proceed => inferInstanceAs (Decidable (batch.phase = .ending → _))
  | .wait _ | .requestStop | .checkThermal _ | .launch _ | .readKernel _ | .readErrors _
  | .pollContainment _ | .pollStalls _ | .drain _ | .classify _ =>
      inferInstanceAs (Decidable True)

/-! ## What the stage says -/

/-- The exit of the lane was found, and it was not stopped before the deadline. -/
def Polled (batch : Batch) (core : Nat) : Prop :=
  (batch.processes core).returnCode.isSome = true ∧
    (batch.processes core).Timely batch.duration

/-- Without an interruption nothing is stopped early. -/
def Late (batch : Batch) : Prop := batch.interrupted = false → batch.OnTime

def Due (batch : Batch) : Prop :=
  match batch.phase with
  | .stoppingExited core _ => batch.Polled core
  | .drainingExited core _ | .classingExited core _ => batch.Polled core ∧ batch.Ended core
  | .terminating rest | .draining _ rest => batch.Late ∧ ∀ core, core ∉ rest → batch.Ended core
  | .closing | .classing _ => batch.Late ∧ ∀ core, batch.Ended core
  | _ => True

/-- A process is being stopped, or classed afterwards. -/
def ending : Phase → Bool
  | .stoppingExited _ _ | .drainingExited _ _ | .classingExited _ _ | .terminating _
  | .draining _ _ | .closing | .classing _ => true
  | _ => false

theorem due_of_phase (hphase : ending batch.phase = false) : batch.Due := by
  unfold Due
  generalize batch.phase = phase at hphase ⊢
  cases phase <;> trivial

/-- A poll that leads on or to the end of the loop. -/
theorem due_ite {ends : Prop} [Decidable ends] {first second : Phase}
    (hfirst : ending first = false) (hsecond : ending second = false) :
    Due { batch with phase := if ends then first else second } := by
  apply due_of_phase
  dsimp only
  split
  · exact hfirst
  · exact hsecond

theorem Onward.of_mem (honward : Onward batch next) {run : LaneRun}
    (hrun : run ∈ next.sup.runs) : ∃ before ∈ batch.sup.runs, run.lane = before.lane ∧
      run.launched = before.launched ∧ (run.unfailed = true → before.unfailed = true) ∧
      (run.verdict = none → before.verdict = none) := by
  obtain ⟨change, hruns, hchange⟩ := honward.lanes
  rw [hruns] at hrun
  obtain ⟨before, hbefore, rfl⟩ := List.mem_map.mp hrun
  exact ⟨before, hbefore, hchange before hbefore⟩

theorem Polled.onward (hpolled : batch.Polled core) (honward : Onward batch next) :
    next.Polled core := by
  have hends := honward.ends core
  refine ⟨hends.code hpolled.1, ?_⟩
  rw [honward.duration]
  exact hends.timely hpolled.2 (.inl hpolled.1)

theorem Ended.onward (hended : batch.Ended core) (honward : Onward batch next) :
    next.Ended core := by
  intro run hrun hcore hlaunched hunfailed
  obtain ⟨before, hbefore, hlane, hlaunched', hunfailed', -⟩ := honward.of_mem hrun
  have hover := hended before hbefore (hlane ▸ hcore) (hlaunched' ▸ hlaunched)
    (hunfailed' hunfailed)
  exact ((honward.ends core).ended hover).over.mpr hover

theorem Late.onward (hlate : batch.Late) (honward : Onward batch next) : next.Late := by
  intro hinterrupted run hrun hlaunched hnone
  obtain ⟨before, hbefore, hlane, hlaunched', -, hnone'⟩ := honward.of_mem hrun
  rw [honward.interrupted] at hinterrupted
  obtain ⟨hdeadline, htimely⟩ := hlate hinterrupted before hbefore (hlaunched' ▸ hlaunched)
    (hnone' hnone)
  rw [honward.duration, hlane]
  exact ⟨hdeadline.trans honward.clock,
    (honward.ends before.lane.coreId).timely htimely (.inr hdeadline)⟩

/-- What happens beside the run keeps what its stage says. -/
theorem Due.onward (hdue : batch.Due) (honward : Onward batch next)
    (hphase : next.phase = batch.phase) : next.Due := by
  unfold Due at hdue ⊢
  rw [hphase]
  split at hdue
  · exact hdue.onward honward
  · exact ⟨hdue.1.onward honward, hdue.2.onward honward⟩
  · exact ⟨hdue.1.onward honward, hdue.2.onward honward⟩
  · exact ⟨hdue.1.onward honward, fun core hcore => (hdue.2 core hcore).onward honward⟩
  · exact ⟨hdue.1.onward honward, fun core hcore => (hdue.2 core hcore).onward honward⟩
  · exact ⟨hdue.1.onward honward, fun core => (hdue.2 core).onward honward⟩
  · exact ⟨hdue.1.onward honward, fun core => (hdue.2 core).onward honward⟩
  · trivial

/-! ## Every step -/

structure Audited (batch : Batch) : Prop where
  placed : batch.Placed
  ledger : batch.Ledger
  gone : ∀ core, batch.Gone core
  due : batch.Due

/-- The ledger of a state, and that nothing that was torn down and has not failed is left. -/
def Balanced (batch : Batch) : Prop := batch.Ledger ∧ ∀ core, batch.Gone core

theorem Balanced.quiet (hbalanced : batch.Balanced) (hquiet : Quiet batch next)
    (hobserved : next.sup.observed = batch.sup.observed) : next.Balanced :=
  ⟨hbalanced.1.quiet hquiet hobserved, fun core => (hbalanced.2 core).quiet hquiet⟩

/-- A poll of the lanes. -/
theorem balanced_poll (hbalanced : batch.Balanced) {sup : Supervisor}
    (hcharges : Charges may batch.sup sup) (phase : Phase) :
    Balanced { batch.charge sup with phase } := by
  have hcharges' : Charges may { batch.sup with observed := batch.sup.observed } sup := hcharges
  exact hbalanced.quiet ((quiet_charge hcharges').trans (quiet_stage _ phase)) hcharges.observed

/-- A read of the kernel log. -/
theorem balanced_read (hbalanced : batch.Balanced) (read : KernelRead) (force : Bool)
    (phase : Phase) :
    Balanced { batch.charge (batch.sup.applyMceEvents read force).2 with phase } := by
  obtain ⟨hledger, hgone⟩ := hbalanced
  have hcharges := charges_applyMceEvents hledger.distinct read force
  have hquiet : Quiet batch
      { batch.charge (batch.sup.applyMceEvents read force).2 with phase } :=
    (quiet_charge hcharges).trans (quiet_stage _ phase)
  refine ⟨hledger.quiet_read hquiet ?_, fun core => (hgone core).quiet hquiet⟩
  intro event hevent run hrun hcpu
  have hobserved := observed_applyMceEvents hledger.distinct read force
  rw [show ({ batch.charge (batch.sup.applyMceEvents read force).2 with phase } : Batch).sup.observed
    = _ from hobserved] at hevent
  rcases List.mem_append.mp hevent with hbefore | hseen
  · obtain ⟨before, hmem, hlane, -, hfails, -⟩ := hquiet.failed hrun
    exact hfails (hledger.named event hbefore before hmem (hlane ▸ hcpu))
  · exact failed_of_read hledger.distinct hledger.apart hrun hseen hcpu

/-- An error of the backend is noted, and its lane has failed. -/
theorem ledger_report (hledger : batch.Ledger) {found : List Nat}
    (hfound : ∀ core ∈ found, ∀ run ∈ batch.sup.runs, run.lane.coreId = core → run.Failed) :
    Ledger { batch with reported := found ++ batch.reported } := by
  refine ⟨hledger.distinct, hledger.apart, fun run hrun => ?_, hledger.named⟩
  have htraced := hledger.traced run hrun
  refine ⟨htraced.earned, fun hfailed => ?_, fun hreported => ?_, htraced.signed⟩
  · exact (htraced.blamed hfailed).imp_right fun hblame =>
      hblame.imp_left fun hmem => List.mem_append_right _ hmem
  · rcases List.mem_append.mp hreported with hnew | hold
    · exact hfound _ hnew run hrun rfl
    · exact htraced.reported hold

theorem balanced_readErrors {classes : CharClasses} (hbalanced : batch.Balanced)
    (results : Nat → ResultsFile) : (batch.readErrors classes results).Balanced := by
  have hdistinct := hbalanced.1.distinct
  rw [readErrors]
  split
  · generalize herrors : (fun core =>
      (pollErrors classes batch.backend (results core)).bind fun finding => finding.result.2) =
        errors
    have hcharges := charges_pollBackendErrors hdistinct errors
    have hpoll := balanced_poll hbalanced hcharges batch.phase
    have hfound : ∀ core ∈ ((batch.sup.firstFault (·.verdict.isNone) errors).map
        Prod.fst).toList, ∀ run ∈ (batch.sup.pollBackendErrors errors).2.runs,
          run.lane.coreId = core → run.Failed := by
      intro core hcore run hrun hsame
      cases hfirst : batch.sup.firstFault (·.verdict.isNone) errors with
      | none =>
          rw [hfirst] at hcore
          exact absurd hcore List.not_mem_nil
      | some found =>
          rw [hfirst] at hcore
          obtain rfl : core = found.1 := by simpa using hcore
          unfold pollBackendErrors at hrun
          rw [hfirst] at hrun
          exact failed_fail hrun hsame
    have hreported := ledger_report hpoll.1 hfound
    refine ⟨hreported.quiet (quiet_of_eq rfl rfl rfl rfl rfl le_rfl rfl) rfl, fun core => ?_⟩
    exact hpoll.2 core
  · exact hbalanced.quiet (quiet_of_eq rfl rfl rfl rfl rfl le_rfl rfl) rfl

/-- A lane is launched. -/
theorem balanced_started (hbalanced : batch.Balanced) (core : Nat)
    (contained dutyDriver : Bool) :
    Balanced { batch.onProcess core fun process => { process with contained, dutyDriver } with
      sup := batch.sup.onLane core fun run => { run with launched := true } } := by
  have hprocess : Quiet batch
      (batch.onProcess core fun process => { process with contained, dutyDriver }) :=
    quiet_onProcess batch core fun _ => ⟨rfl, rfl, rfl, rfl⟩
  obtain ⟨hledger, hgone⟩ := hbalanced.quiet hprocess rfl
  have hlanes : ∀ run ∈ (batch.sup.onLane core fun run => { run with launched := true }).runs,
      ∃ before ∈ batch.sup.runs, run.lane = before.lane ∧ run.verdict = before.verdict ∧
        (before.launched = true → run.launched = true) := by
    intro run hrun
    obtain ⟨before, hbefore, rfl⟩ := List.mem_map.mp hrun
    refine ⟨before, hbefore, ?_⟩
    split_ifs
    · exact ⟨rfl, rfl, fun _ => rfl⟩
    · exact ⟨rfl, rfl, id⟩
  have hmoves : Moves (fun _ => True) batch.sup
      (batch.sup.onLane core fun run => { run with launched := true }) :=
    .onLane (fun _ => ⟨rfl, fun _ => rfl⟩) fun _ _ _ => trivial
  refine ⟨⟨hmoves.distinct hledger.distinct, hledger.apart.of_lanes fun run hrun => ?_,
    fun run hrun => ?_, fun event hevent run hrun hcpu => ?_⟩,
    fun other run hrun hcore hunfailed => ?_⟩ <;>
    obtain ⟨before, hbefore, hlane, hverdict, hlaunched⟩ := hlanes run hrun
  · exact ⟨before, hbefore, hlane⟩
  · have htraced := hledger.traced before hbefore
    have hcore := congrArg Lane.coreId hlane
    refine ⟨fun hpassed => ?_, fun hfailed => ?_, fun hreported => ?_, fun hunfailed => ?_⟩
    · rw [hverdict] at hpassed
      rw [hcore]
      exact (htraced.earned hpassed).imp_left hlaunched
    · rw [hcore]
      exact htraced.blamed ((failed_congr hverdict).mp hfailed)
    · rw [hcore] at hreported
      exact (failed_congr hverdict).mpr (htraced.reported hreported)
    · unfold LaneRun.unfailed at hunfailed
      rw [hverdict] at hunfailed
      rw [hcore]
      exact htraced.signed hunfailed
  · exact (failed_congr hverdict).mpr (hledger.named event hevent before hbefore (hlane ▸ hcpu))
  · unfold LaneRun.unfailed at hunfailed
    rw [hverdict] at hunfailed
    exact hgone other before hbefore (hlane ▸ hcore) hunfailed

theorem balanced_launch (hbalanced : batch.Balanced) (core : Nat) (rest : List Nat)
    (outcome : Launch) : (batch.launch core rest outcome).Balanced := by
  have hfail {failing : Batch} (hbefore : failing.Balanced) (message : String) :
      Balanced { failing.fail core message with phase := .entering } :=
    hbefore.quiet ((quiet_fail failing core message).trans (quiet_stage _ .entering)) rfl
  cases outcome with
  | captureFailed exc => exact hfail hbalanced _
  | refused exc => exact hfail hbalanced _
  | started contained dutyDriver =>
      rw [launch]
      split
      · exact hbalanced.quiet (quiet_stage batch .entering) rfl
      · exact (balanced_started hbalanced core contained dutyDriver).quiet
          (quiet_of_eq rfl rfl rfl rfl rfl le_rfl rfl) rfl
  | dutyFailed contained dutyDriver exc =>
      rw [launch]
      split
      · exact hbalanced.quiet (quiet_stage batch .entering) rfl
      · exact hfail (balanced_started hbalanced core contained dutyDriver) _

theorem due_launch (batch : Batch) (core : Nat) (rest : List Nat) (outcome : Launch) :
    (batch.launch core rest outcome).Due := by
  cases outcome with
  | captureFailed exc => trivial
  | refused exc => trivial
  | started contained dutyDriver =>
      rw [launch]
      split <;> trivial
  | dutyFailed contained dutyDriver exc =>
      rw [launch]
      split <;> trivial

theorem due_readErrors {classes : CharClasses} (batch : Batch) (results : Nat → ResultsFile) :
    (batch.readErrors classes results).Due := by
  apply due_of_phase
  unfold readErrors
  dsimp only
  split
  · dsimp only
    split_ifs <;> rfl
  · rfl

theorem balanced_pollExit (hbalanced : batch.Balanced) (core : Nat) (rest : List Nat)
    (exit : Option Int) (dutyFault : Option String) :
    (batch.pollExit core rest exit dutyFault).Balanced := by
  have hduty := quiet_stopDutyDriver batch core dutyFault
  obtain ⟨hledger, hgone⟩ := hbalanced.quiet hduty (observed_stopDutyDriver batch core dutyFault)
  rw [pollExit]
  split
  · split
    · exact hbalanced.quiet (quiet_stage batch _) rfl
    · rename_i returnCode hcode
      rw [← (hduty.ends core).returnCode] at hcode
      have hexited : Balanced ((batch.stopDutyDriver core dutyFault).exitedWith core returnCode) :=
        ledger_exitedWith hledger hgone hcode
      exact (hexited.quiet (quiet_exited _ core fun _ => true) rfl).quiet
        (quiet_of_eq rfl rfl rfl rfl rfl le_rfl rfl) rfl
  · exact hbalanced.quiet (quiet_stage batch _) rfl

/-- The exit that is found is one in time. -/
theorem due_pollExit (hintime : batch.InTime core) (rest : List Nat) (exit : Option Int)
    (dutyFault : Option String) : (batch.pollExit core rest exit dutyFault).Due := by
  have hduty := quiet_stopDutyDriver batch core dutyFault
  rw [pollExit]
  split
  · rename_i hlane
    split
    · trivial
    · rename_i returnCode hcode
      obtain ⟨run, hrun, hmeets⟩ := List.any_eq_true.mp hlane
      simp only [Bool.and_eq_true, decide_eq_true_eq, Option.isNone_iff_eq_none] at hmeets
      have htimely := hintime run hrun hmeets.1 hmeets.2.2 hmeets.2.1
      rw [← (hduty.ends core).timely, ← hduty.duration] at htimely
      have hpolled : Polled ((batch.stopDutyDriver core dutyFault).exitedWith core returnCode)
          core := by
        constructor <;> simp only [exitedWith, onProcess, if_true, Option.isSome_some]
        exact htimely
      exact hpolled
  · trivial

/-- A lane that is over and has no verdict is classed in the loop as it is. -/
theorem classable_exited (hbalanced : batch.Balanced) (hall : batch.AllLaunched)
    (hpolled : batch.Polled core) (hended : batch.Ended core)
    (hnone : batch.has core (·.verdict.isNone) = true) : batch.Classable core false := by
  intro run hrun hcore
  have hundecided : run.verdict = none := by
    have hmeets := has_spec hbalanced.1.distinct hnone hrun hcore
    rwa [Option.isNone_iff_eq_none] at hmeets
  have hlaunched := hall run hrun
  have hunfailed : run.unfailed = true := by
    rw [LaneRun.unfailed, hundecided]
    rfl
  exact ⟨hlaunched, hunfailed, hended run hrun hcore hlaunched hunfailed, fun _ => hpolled.2,
    fun _ => hundecided⟩

/-- At the end a lane is classed as interrupted only if it has no verdict. -/
theorem classable_ended (hbalanced : batch.Balanced) (hlate : batch.Late)
    (hended : batch.Ended core)
    (hlane : (batch.has core fun run => run.launched && run.unfailed) = true) :
    batch.Classable core (batch.interrupted && !batch.has core (·.verdict.isSome)) := by
  intro run hrun hcore
  have hmeets := has_spec hbalanced.1.distinct hlane hrun hcore
  obtain ⟨hlaunched, hunfailed⟩ := Bool.and_eq_true_iff.mp hmeets
  have hsome : batch.has core (·.verdict.isSome) = run.verdict.isSome := by
    rw [Bool.eq_iff_iff]
    constructor
    · exact fun hhas => has_spec hbalanced.1.distinct hhas hrun hcore
    · exact fun hdecided => List.any_eq_true.mpr ⟨run, hrun, by
        rw [hcore, decide_eq_true rfl, Bool.true_and]
        exact hdecided⟩
  rw [hsome]
  have hover := hended run hrun hcore hlaunched hunfailed
  cases hverdict : run.verdict with
  | none =>
      refine ⟨hlaunched, hunfailed, hover, fun hthrough => ?_, fun _ => rfl⟩
      rw [Option.isSome_none, Bool.not_false, Bool.and_true] at hthrough
      exact hcore ▸ (hlate hthrough run hrun hlaunched hverdict).2
  | some verdict =>
      refine ⟨hlaunched, hunfailed, hover, fun _ _ => ?_, fun hinterrupted => ?_⟩
      · have hpassed : run.verdict.any (·.passed) = true := by
          rw [LaneRun.unfailed, hverdict] at hunfailed
          rw [hverdict]
          exact hunfailed
        exact hcore ▸ ((hbalanced.1.traced run hrun).earned hpassed).2.2.2
      · rw [Option.isSome_some, Bool.not_true, Bool.and_false] at hinterrupted
        cases hinterrupted

theorem balanced_classifyExited {classes : CharClasses} (hbalanced : batch.Balanced)
    (hall : batch.AllLaunched) (hpolled : batch.Polled core) (hended : batch.Ended core)
    (rest : List Nat) (results : ResultsFile) :
    (batch.classifyExited classes core rest results).Balanced ∧
      (batch.classifyExited classes core rest results).Due := by
  constructor
  · rw [classifyExited]
    by_cases hnone : batch.has core (·.verdict.isNone) = true
    · simp only [hnone, if_true]
      have hclassable := classable_exited hbalanced hall hpolled hended hnone
      have hclassed : Balanced (batch.classify classes core results batch.now false) :=
        ⟨ledger_classify hbalanced.1 hclassable,
          fun other => gone_classify (hbalanced.2 other) hclassable⟩
      exact hclassed.quiet (quiet_stage _ _) rfl
    · simp only [hnone]
      exact hbalanced.quiet (quiet_stage batch _) rfl
  · apply due_of_phase
    unfold classifyExited
    dsimp only
    split_ifs <;> rfl

theorem balanced_classifyLane {classes : CharClasses} (hbalanced : batch.Balanced)
    (hlate : batch.Late) (hended : batch.Ended core) (results : ResultsFile) :
    (batch.classifyLane classes core results).Balanced ∧
      Onward batch (batch.classifyLane classes core results) := by
  rw [classifyLane]
  split
  · rename_i hlane
    have hclassable := classable_ended hbalanced hlate hended hlane
    exact ⟨⟨ledger_classify hbalanced.1 hclassable,
      fun other => gone_classify (hbalanced.2 other) hclassable⟩, onward_classify hclassable⟩
  · exact ⟨hbalanced, (Quiet.refl batch).onward⟩

/-- The end of the loop: what is not interrupted has run to the deadline. -/
theorem balanced_ending (hbalanced : batch.Balanced)
    (hends : batch.sup.stop = true ∧ batch.clock < batch.duration ∨ batch.OnTime) :
    let next : Batch := { batch with
      elapsed := batch.clock
      interrupted := batch.sup.stop && decide (batch.clock < batch.duration)
      phase := .terminating batch.cores }
    next.Balanced ∧ next.Due := by
  obtain ⟨hledger, hgone⟩ := hbalanced
  refine ⟨⟨⟨hledger.distinct, hledger.apart, fun run hrun => ?_, hledger.named⟩, hgone⟩, ?_, ?_⟩
  · obtain ⟨hearned, hblamed, hreported, hsigned⟩ := hledger.traced run hrun
    exact ⟨hearned, hblamed, hreported, hsigned⟩
  · intro hthrough
    rcases hends with ⟨hstop, hearly⟩ | hontime
    · rw [show (batch.sup.stop && decide (batch.clock < batch.duration)) = true by
        rw [hstop, decide_eq_true hearly]; rfl] at hthrough
      cases hthrough
    · exact hontime
  · -- every lane is still to be torn down
    intro core hcore run hrun hsame
    exact absurd (List.mem_map.mpr ⟨run, hrun, hsame⟩) hcore

section Stages

variable (haudited : batch.Audited)
include haudited

theorem Audited.balanced : batch.Balanced := ⟨haudited.ledger, haudited.gone⟩

/-- What the stage at hand says. -/
theorem Audited.due_at {phase : Phase} (hphase : batch.phase = phase) :
    Due { batch with phase } := by
  rw [← hphase]
  exact haudited.due

theorem Audited.tears {teardown : Teardown} (hfair : batch.EndsFairly core teardown) :
    Tears core batch (batch.terminateRun core teardown) :=
  tears_terminateRun haudited.ledger haudited.gone hfair

/-- What happens beside the run. -/
theorem balanced_beside (hquiet : Quiet batch next)
    (hobserved : next.sup.observed = batch.sup.observed) (hphase : next.phase = batch.phase) :
    next.Balanced ∧ next.Due :=
  ⟨haudited.balanced.quiet hquiet hobserved, haudited.due.onward hquiet.onward hphase⟩

/-- Another thread stops a lane. -/
theorem balanced_forceTeardown {teardown : Teardown} (hfair : batch.EndsFairly core teardown) :
    let next := terminateRun { batch with sup := { batch.sup with stop := true } } core teardown
    next.Balanced ∧ next.Due := by
  have hquiet : Quiet batch { batch with sup := { batch.sup with stop := true } } :=
    quiet_of_eq rfl rfl rfl rfl rfl le_rfl rfl
  obtain ⟨hledger, hgone⟩ := haudited.balanced.quiet hquiet rfl
  have htears := tears_terminateRun hledger hgone (hfair.quiet hquiet)
  exact ⟨⟨htears.ledger, htears.gone⟩,
    haudited.due.onward (hquiet.onward.trans htears.onward) phase_terminateRun⟩

/-- What was due before the closing read of the kernel log is due after it, for every lane. -/
theorem balanced_closeKernel (read : KernelRead) (hphase : batch.phase = .closing) :
    let next := { batch.charge (batch.sup.applyMceEvents read true).2 with
      phase := .classing batch.cores }
    next.Balanced ∧ next.Due := by
  obtain ⟨hlate, hended⟩ : batch.Late ∧ ∀ core, batch.Ended core := haudited.due_at hphase
  have hcharges := charges_applyMceEvents haudited.placed.distinct read true
  have honward : Onward batch { batch.charge (batch.sup.applyMceEvents read true).2 with
      phase := .classing batch.cores } :=
    ((quiet_charge hcharges).trans (quiet_stage _ _)).onward
  exact ⟨balanced_read haudited.balanced read true _, hlate.onward honward,
    fun core => (hended core).onward honward⟩

/-- The lane whose exit was found is torn down. -/
theorem balanced_stopExited (rest : List Nat) {teardown : Teardown}
    (hfair : batch.EndsFairly core teardown) (hphase : batch.phase = .stoppingExited core rest) :
    let next := { batch.terminateRun core teardown with phase := .drainingExited core rest }
    next.Balanced ∧ next.Due := by
  have hpolled : batch.Polled core := haudited.due_at hphase
  have htears := haudited.tears hfair
  have hstage := quiet_stage (batch.terminateRun core teardown) (.drainingExited core rest)
  have hbalanced : (batch.terminateRun core teardown).Balanced := ⟨htears.ledger, htears.gone⟩
  exact ⟨hbalanced.quiet hstage rfl, hpolled.onward (htears.onward.trans hstage.onward),
    htears.ended.onward hstage.onward⟩

/-- The lane that is torn down has ended now, and the others had before. -/
theorem balanced_stopLane (rest : List Nat) {teardown : Teardown}
    (hfair : batch.EndsFairly core teardown) (hphase : batch.phase = .terminating (core :: rest)) :
    let next := { batch.terminateRun core teardown with phase := .draining core rest }
    next.Balanced ∧ next.Due := by
  obtain ⟨hlate, hended⟩ : batch.Late ∧ ∀ other, other ∉ core :: rest → batch.Ended other :=
    haudited.due_at hphase
  have htears := haudited.tears hfair
  have hstage := quiet_stage (batch.terminateRun core teardown) (.draining core rest)
  have honward := htears.onward.trans hstage.onward
  have hbalanced : (batch.terminateRun core teardown).Balanced := ⟨htears.ledger, htears.gone⟩
  refine ⟨hbalanced.quiet hstage rfl, hlate.onward honward, fun other hother => ?_⟩
  by_cases hsame : other = core
  · subst hsame
    exact htears.ended.onward hstage.onward
  · have hapart : other ∉ core :: rest := fun hmem =>
      hother ((List.mem_cons.mp hmem).resolve_left hsame)
    exact (hended other hapart).onward honward

theorem balanced_drainExited (rest : List Nat) (capture : Capture)
    (hphase : batch.phase = .drainingExited core rest) :
    let next := { batch.drain core capture with phase := .classingExited core rest }
    next.Balanced ∧ next.Due := by
  obtain ⟨hpolled, hended⟩ : batch.Polled core ∧ batch.Ended core := haudited.due_at hphase
  have hquiet := (quiet_drain batch core capture).trans (quiet_stage _ (.classingExited core rest))
  exact ⟨haudited.balanced.quiet hquiet (unread_drain haudited.placed.distinct core capture).observed,
    hpolled.onward hquiet.onward, hended.onward hquiet.onward⟩

/-- A lane that was never launched has no output to drain. -/
theorem balanced_drainLane (rest : List Nat) (capture : Capture)
    (hphase : batch.phase = .draining core rest) :
    let next := { (if batch.launched core then batch.drain core capture else batch) with
      phase := .terminating rest }
    next.Balanced ∧ next.Due := by
  obtain ⟨hlate, hended⟩ : batch.Late ∧ ∀ other, other ∉ rest → batch.Ended other :=
    haudited.due_at hphase
  have hdrained : Quiet batch
      (if batch.launched core then batch.drain core capture else batch) := by
    split
    · exact quiet_drain batch core capture
    · exact .refl batch
  have hunread := unread_drainLane haudited.placed.distinct core capture
  have hquiet := hdrained.trans (quiet_stage _ (.terminating rest))
  exact ⟨haudited.balanced.quiet hquiet hunread.observed, hlate.onward hquiet.onward,
    fun other hother => (hended other hother).onward hquiet.onward⟩

/-- At the end the lanes are classed one after the other. -/
theorem balanced_classLane {classes : CharClasses} (rest : List Nat) (results : ResultsFile)
    (hphase : batch.phase = .classing (core :: rest)) :
    let next := { batch.classifyLane classes core results with phase := .classing rest }
    next.Balanced ∧ next.Due := by
  obtain ⟨hlate, hended⟩ : batch.Late ∧ ∀ other, batch.Ended other := haudited.due_at hphase
  obtain ⟨hclassed, honward⟩ :=
    balanced_classifyLane haudited.balanced hlate (hended core) results
  have hstage := quiet_stage (batch.classifyLane classes core results) (.classing rest)
  exact ⟨hclassed.quiet hstage rfl, hlate.onward (honward.trans hstage.onward),
    fun other => (hended other).onward (honward.trans hstage.onward)⟩

/-- Where the run goes on without observing anything, only the end of the loop asks for more than
there was before. -/
theorem balanced_onset (hcandid : batch.Candid .proceed) (honset : Onset batch next) :
    next.Balanced ∧ next.Due := by
  have hbalanced := haudited.balanced
  cases honset with
  | enter hphase => exact ⟨hbalanced.quiet (quiet_stage batch _) rfl, due_of_phase rfl⟩
  | exitsPolled hphase => exact ⟨hbalanced.quiet (quiet_stage batch _) rfl, due_of_phase rfl⟩
  | classed hphase => exact ⟨hbalanced.quiet (quiet_stage batch _) rfl, due_of_phase rfl⟩
  | loop hphase => exact ⟨hbalanced.quiet (quiet_stage batch _) rfl, due_ite rfl rfl⟩
  | poll hphase => exact ⟨hbalanced.quiet (quiet_stage batch _) rfl, due_ite rfl rfl⟩
  | running hphase => exact ⟨hbalanced.quiet (quiet_stage batch _) rfl, due_ite rfl rfl⟩
  | deadline hphase => exact ⟨hbalanced.quiet (quiet_stage batch _) rfl, due_ite rfl rfl⟩
  | ending hphase => exact balanced_ending hbalanced (hcandid hphase)
  | terminated hphase =>
      obtain ⟨hlate, hended⟩ : batch.Late ∧ ∀ core, core ∉ [] → batch.Ended core :=
        haudited.due_at hphase
      have hstage := quiet_stage batch .closing
      exact ⟨hbalanced.quiet hstage rfl, hlate.onward hstage.onward,
        fun core => (hended core List.not_mem_nil).onward hstage.onward⟩

/-- **Step lemma.**  A candid step keeps the ledger. -/
theorem balanced_step {classes : CharClasses} {event : SupervisionEvent}
    (hcandid : batch.Candid event) (hstep : batch.step classes event = some next) :
    next.Balanced ∧ next.Due := by
  have hdistinct := haudited.placed.distinct
  have hbalanced := haudited.balanced
  cases stage_of_step hstep with
  | wait seconds hforward =>
      exact balanced_beside haudited (quiet_of_eq rfl rfl rfl rfl rfl
        (le_add_of_nonneg_right hforward) rfl) rfl rfl
  | requestStop =>
      exact balanced_beside haudited (quiet_of_eq rfl rfl rfl rfl rfl le_rfl rfl) rfl rfl
  | forceTeardown core teardown hopen => exact balanced_forceTeardown haudited hcandid
  | checkStart reading hphase =>
      exact ⟨balanced_poll hbalanced (charges_thermalFailed hdistinct reading true) _,
        due_ite rfl rfl⟩
  | readThermal reading hphase =>
      exact ⟨balanced_poll hbalanced (charges_thermalFailed hdistinct reading false) _,
        due_ite rfl rfl⟩
  | launch core rest outcome hphase =>
      exact ⟨balanced_launch hbalanced core rest outcome, due_launch batch core rest outcome⟩
  | readKernel read hphase => exact ⟨balanced_read hbalanced read false _, due_ite rfl rfl⟩
  | closeKernel read hphase => exact balanced_closeKernel haudited read hphase
  | readErrors results hphase =>
      exact ⟨balanced_readErrors hbalanced results, due_readErrors batch results⟩
  | pollExit core rest exit dutyFault hphase =>
      have hintime := hcandid core (by rw [hphase]; rfl)
      exact ⟨balanced_pollExit hbalanced core rest exit dutyFault,
        due_pollExit hintime rest exit dutyFault⟩
  | pollContainment fault hphase =>
      exact ⟨balanced_poll hbalanced (charges_pollContainment hdistinct fault) _, due_ite rfl rfl⟩
  | pollStalls stalled hphase =>
      exact ⟨balanced_poll hbalanced (charges_pollStalls hdistinct stalled) _, due_ite rfl rfl⟩
  | stopExited core rest teardown hphase =>
      exact balanced_stopExited haudited rest (hcandid core (by rw [hphase]; rfl)) hphase
  | stopLane core rest teardown hphase =>
      exact balanced_stopLane haudited rest (hcandid core (by rw [hphase]; rfl)) hphase
  | drainExited core rest capture hphase =>
      exact balanced_drainExited haudited rest capture hphase
  | drainLane core rest capture hphase => exact balanced_drainLane haudited rest capture hphase
  | classifyExited core rest results hphase =>
      have hall : batch.AllLaunched := haudited.placed.standing_at hphase
      obtain ⟨hpolled, hended⟩ : batch.Polled core ∧ batch.Ended core := haudited.due_at hphase
      exact balanced_classifyExited hbalanced hall hpolled hended rest results
  | classifyLane core rest results hphase => exact balanced_classLane haudited rest results hphase
  | proceed honset => exact balanced_onset haudited hcandid honset

end Stages

theorem audited_step {classes : CharClasses} {event : SupervisionEvent}
    (haudited : batch.Audited) (hcandid : batch.Candid event)
    (hstep : batch.step classes event = some next) : next.Audited := by
  obtain ⟨⟨hledger, hgone⟩, hdue⟩ := balanced_step haudited hcandid hstep
  exact ⟨placed_step haudited.placed hstep, hledger, hgone, hdue⟩

/-! ## Runs -/

theorem audited_fresh (hfresh : batch.Fresh) : batch.Audited := by
  obtain ⟨hplaced, hapart, -, -⟩ := guarded_fresh hfresh
  have hundecided : ∀ run ∈ batch.sup.runs, run.launched = false ∧ run.verdict = none := by
    intro run hrun
    rw [hfresh.unlaunched run hrun]
    exact ⟨rfl, rfl⟩
  have hprocess (core : Nat) : batch.processes core = {} := by rw [hfresh.initial]
  refine ⟨hplaced, ⟨hplaced.distinct, hapart, fun run hrun => ?_, ?_⟩, ?_, ?_⟩
  · obtain ⟨-, hnone⟩ := hundecided run hrun
    refine ⟨fun hpassed => ?_, fun hfailed => ?_, fun hreported => ?_, fun _ => ?_⟩
    · rw [hnone] at hpassed
      cases hpassed
    · rw [LaneRun.Failed, LaneRun.unfailed, hnone] at hfailed
      cases hfailed
    · rw [hfresh.initial] at hreported
      exact absurd hreported List.not_mem_nil
    · rw [hprocess]
      constructor
      · rintro ⟨outcome, htermination, -⟩
        cases htermination
      · intro outcome htermination
        cases htermination
  · rw [hfresh.unobserved]
    exact fun _ hevent => absurd hevent List.not_mem_nil
  · intro core run _ _ _ htermination
    rw [hprocess] at htermination
    cases htermination
  · apply due_of_phase
    rw [hfresh.initial]
    rfl

/-- The verdicts of the lanes say what became of them. -/
structure Honest (batch : Batch) : Prop where
  /-- A lane passes only if it was launched, ran to the deadline and was ended by the
  supervisor, its backend reported no error and no event named one of its CPUs. -/
  earned : ∀ run ∈ batch.sup.runs, run.verdict.any (·.passed) = true →
    run.launched = true ∧ (batch.processes run.lane.coreId).EndedBySupervisor ∧
      batch.duration ≤ (batch.processes run.lane.coreId).stoppedAt ∧
      run.lane.coreId ∉ batch.reported ∧
      ∀ event ∈ batch.sup.observed, event.cpu ∉ run.lane.mceCpus
  /-- A lane that was stopped early while it was running, and that neither its backend nor a
  poll or the teardown has failed, has no verdict. -/
  early : ∀ run ∈ batch.sup.runs, run.launched = true →
    (batch.processes run.lane.coreId).EndedBySupervisor →
    (batch.processes run.lane.coreId).stoppedAt < batch.duration →
    run.lane.coreId ∉ batch.reported → run.lane.coreId ∉ batch.charged → run.verdict = none
  /-- In any read an event that names a CPU leaves the lanes of other CPUs as they are. -/
  others : ∀ (force : Bool) (events : List MCEEvent) (state : Bool × Supervisor),
    state.2.runs = batch.sup.runs → ∀ event : MCEEvent, event.cpu ≠ -1 →
      ∀ run ∈ (events.foldl (applyMceEvent force) state).2.runs,
        event.cpu ∉ run.lane.mceCpus →
          run ∈ (applyMceEvent force (events.foldl (applyMceEvent force) state) event).2.runs

/-- **The supervisor invents no pass** in a run of candid steps. -/
theorem honest_of_reachable (classes : CharClasses) {batch : Batch}
    (hreach : (supervision classes).ReachableBy Candid batch) : batch.Honest := by
  have haudited : batch.Audited := hreach.invariant (fun _ => audited_fresh)
    fun _ _ _ haudited hcandid hstep => audited_step haudited hcandid hstep
  have hledger := haudited.ledger
  have hpassed {run : LaneRun} (hpass : run.verdict.any (·.passed) = true) : ¬ run.Failed := by
    intro hfailed
    obtain ⟨verdict, hverdict, hfail⟩ := LaneRun.failed_iff.mp hfailed
    rw [hverdict, Option.any_some, hfail] at hpass
    cases hpass
  refine ⟨fun run hrun hpass => ?_, fun run hrun hlaunched hended hearly hreported hcharged => ?_,
    fun force events state hstate event hcpu run hrun hnot => ?_⟩
  · have htraced := hledger.traced run hrun
    obtain ⟨hlaunched, -, hended, hdeadline⟩ := htraced.earned hpass
    exact ⟨hlaunched, hended, hdeadline, fun hmem => hpassed hpass (htraced.reported hmem),
      fun event hevent hnamed => hpassed hpass (hledger.named event hevent run hrun hnamed)⟩
  · have htraced := hledger.traced run hrun
    cases hverdict : run.verdict with
    | none => rfl
    | some verdict =>
        exfalso
        cases hpass : verdict.passed with
        | true =>
            have hlate := (htraced.earned (by rw [hverdict]; exact hpass)).2.2.2
            exact absurd hlate (not_le.mpr hearly)
        | false =>
            rcases htraced.blamed (LaneRun.failed_iff.mpr ⟨verdict, hverdict, hpass⟩) with
              hmem | hmem | ⟨-, hnot⟩
            · exact hcharged hmem
            · exact hreported hmem
            · exact hnot hended
  · have hdistinct : state.2.Distinct := by
      unfold Distinct
      rw [hstate]
      exact hledger.distinct
    have hfold := (@charges_foldEvents state.2 force events state.1 hdistinct).distinct hdistinct
    exact (@charges_named _ force _ hfold event hcpu).mem hrun hnot

/-! ## Honest and invented passes -/

/-- One round of the polls that finds nothing, up to the exits. -/
def quietRound (seconds : ℚ) : List SupervisionEvent :=
  [.proceed, .checkThermal .safe, .wait seconds, .readKernel (.events []),
    .readErrors fun _ => .missing]

/-- A teardown, with nothing in the output. -/
def stopLane (teardown : Teardown) : List SupervisionEvent :=
  [.terminate teardown, .drain (.read "" "")]

def passes (batch : Batch) : Phase × List Bool × List Bool :=
  (batch.phase, batch.sup.runs.map fun run => run.verdict.any (·.passed),
    batch.sup.runs.map fun run => run.verdict.isSome)

/-- The only lane is ended at its deadline. -/
def untilDeadline : List SupervisionEvent :=
  List.flatten
    [[.checkThermal .safe, .launch (.started false false), .proceed, .proceed], quietRound 360,
      [.pollExit none none, .proceed, .proceed, .pollContainment fun _ => none,
        .pollStalls fun _ => false, .proceed, .proceed], stopLane {},
      [.proceed, .readKernel (.events []), .classify .missing, .proceed]]

/-- A lane that is ended at its deadline passes, and honestly so. -/
theorem honest_at_deadline : ∃ batch : Batch,
    batch.passes = (.done, [true], [true]) ∧ batch.Honest := by
  obtain ⟨batch, hreach, hpasses⟩ : ∃ batch, (supervision .ascii).ReachableBy Candid batch ∧
      batch.passes = (.done, [true], [true]) :=
    StepSystem.exists_reachableBy_runAllowed Candid passes _ untilDeadline fresh_lone
      (by decide +kernel)
  exact ⟨batch, hpasses, honest_of_reachable .ascii hreach⟩

/-- Two lanes, of which the first failure stops both. -/
def pair : Batch where
  sup :=
    { phase := "parallel stress"
      maxTemperature := limit95C
      stopOnFirstFailure := true
      runs := [{ lane := { coreId := 0, cpuList := "0", mceCpus := [0] } },
        { lane := { coreId := 1, cpuList := "1", mceCpus := [1] } }] }
  backend := .mprime
  duration := 360

theorem fresh_pair : pair.Fresh where
  distinct := by decide
  disjoint := by decide
  numbered := by decide
  alone := fun hsettings => by cases hsettings
  unlaunched := by decide
  unobserved := rfl
  initial := rfl

/-- The first lane exits by itself after ten seconds, and ends the loop. -/
def failingExit : List SupervisionEvent :=
  List.flatten
    [[.checkThermal .safe, .launch (.started false false), .launch (.started false false),
        .proceed, .proceed], quietRound 10, [.pollExit (some 1) none],
      stopLane { probe := { exited := true, gone := true } }, [.classify .missing, .proceed],
      stopLane {}, stopLane {},
      [.proceed, .readKernel (.events []), .classify .missing, .classify .missing, .proceed]]

/-- The rest of a run of one lane, whose exit the loop has found. -/
def afterExit : List SupervisionEvent :=
  List.flatten
    [[.classify .missing, .proceed, .proceed, .proceed], stopLane {},
      [.proceed, .readKernel (.events []), .classify .missing, .proceed]]

/-- The leader is killed with SIGTERM from outside, and its child is still there. -/
def strayKill : List SupervisionEvent :=
  List.flatten
    [[.checkThermal .safe, .launch (.started false false), .proceed, .proceed], quietRound 10,
      [.pollExit (some (-15)) none], stopLane { probe := { exited := true } }, afterExit]

/-- Another thread stops the lane as the loop is about to poll it. -/
def earlyTeardown : List SupervisionEvent :=
  List.flatten
    [[.checkThermal .safe, .launch (.started false false), .proceed, .proceed], quietRound 10,
      [.forceTeardown 0 {}, .pollExit none none], stopLane {}, afterExit]

/-- Passes that nothing stands behind: of a lane that was stopped when the other one had failed,
of a lane that was killed from outside, and of a lane that another thread has stopped, each
after ten seconds of six minutes. -/
theorem passes_invented :
    (∃ batch, (supervision .ascii).Reachable batch ∧
      (batch.passes, batch.duration, (batch.processes 1).stoppedAt) =
        ((.done, [false, true], [true, true]), 360, 10)) ∧
    (∃ batch, (supervision .ascii).Reachable batch ∧
      (batch.passes, (batch.processes 0).runningAtStop) = ((.done, [true], [true]), false)) ∧
    ∃ batch, (supervision .ascii).Reachable batch ∧
      (batch.passes, batch.duration, (batch.processes 0).stoppedAt) =
        ((.done, [true], [true]), 360, 10) :=
  ⟨StepSystem.exists_reachable _ _ failingExit fresh_pair (by decide +kernel),
    StepSystem.exists_reachable _ _ strayKill fresh_lone (by decide +kernel),
    StepSystem.exists_reachable _ _ earlyTeardown fresh_lone (by decide +kernel)⟩

end Batch

end Engine
end CoreCycler
