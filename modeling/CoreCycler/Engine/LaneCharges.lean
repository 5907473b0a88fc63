import CoreCycler.Engine.Execution
import Mathlib.Data.List.Nodup

/-!
# What a poll does to the lanes

A poll only ever fails lanes, and each of them only lanes of a kind: the thermal watch those
without a verdict, a kernel event those that have not failed.  `Charges` says this of a poll;
whatever a failed lane keeps is kept by every poll.
-/

namespace CoreCycler
namespace Engine

namespace LaneRun

/-- The lane has failed. -/
def Failed (run : LaneRun) : Prop := run.unfailed = false

theorem failed_iff {run : LaneRun} :
    run.Failed ↔ ∃ verdict, run.verdict = some verdict ∧ verdict.passed = false := by
  unfold Failed unfailed
  cases run.verdict <;> simp

end LaneRun

namespace Supervisor

/-- A lane as it was, or failed where it may be. -/
def Recast (may : LaneRun → Prop) (run next : LaneRun) : Prop :=
  next = run ∨
    may run ∧ ∃ verdict : StressResult, verdict.passed = false ∧
      next = { run with verdict := some verdict }

theorem Recast.lane {may : LaneRun → Prop} {run next : LaneRun} (hrecast : Recast may run next) :
    next.lane = run.lane ∧ next.launched = run.launched ∧ next.exited = run.exited := by
  rcases hrecast with rfl | ⟨-, verdict, -, rfl⟩ <;> exact ⟨rfl, rfl, rfl⟩

/-- A lane that is not as it was has failed. -/
theorem Recast.failed {may : LaneRun → Prop} {run next : LaneRun} (hrecast : Recast may run next) :
    next = run ∨ next.Failed := by
  rcases hrecast with rfl | ⟨-, verdict, hfailed, rfl⟩
  · exact .inl rfl
  · exact .inr (LaneRun.failed_iff.mpr ⟨verdict, rfl, hfailed⟩)

theorem Recast.failed_of {may : LaneRun → Prop} {run next : LaneRun}
    (hrecast : Recast may run next) (hfailed : run.Failed) : next.Failed := by
  rcases hrecast.failed with rfl | hnext
  · exact hfailed
  · exact hnext

/-- A poll that fails lanes of a kind, and does nothing else to them. -/
structure Charges (may : LaneRun → Prop) (sup next : Supervisor) : Prop where
  change : ∃ change : LaneRun → LaneRun, next.runs = sup.runs.map change ∧
    ∀ run ∈ sup.runs, Recast may run (change run)
  settings : next.stopOnFirstFailure = sup.stopOnFirstFailure
  stops : sup.stop = true → next.stop = true
  observed : next.observed = sup.observed

variable {may : LaneRun → Prop} {sup next : Supervisor}

theorem Charges.refl (may : LaneRun → Prop) (sup : Supervisor) : Charges may sup sup :=
  ⟨⟨id, (List.map_id _).symm, fun _ _ => .inl rfl⟩, rfl, id, rfl⟩

/-- Only what a first poll left as it was is charged by a second. -/
theorem Charges.trans {last : Supervisor} (hfirst : Charges may sup next)
    (hsecond : Charges may next last) : Charges may sup last := by
  obtain ⟨first, hruns, hchange⟩ := hfirst.change
  obtain ⟨second, hruns', hchange'⟩ := hsecond.change
  refine ⟨⟨second ∘ first, by rw [hruns', hruns, List.map_map], fun run hrun => ?_⟩,
    hsecond.settings.trans hfirst.settings, fun hstop => hsecond.stops (hfirst.stops hstop),
    hsecond.observed.trans hfirst.observed⟩
  have hnext : first run ∈ next.runs := hruns ▸ List.mem_map_of_mem hrun
  rcases hchange run hrun with heq | ⟨hmay, verdict, hfailed, heq⟩
  · show Recast may run (second (first run))
    rw [heq]
    exact hchange' run (heq ▸ hnext)
  · refine .inr ⟨hmay, ?_⟩
    rcases hchange' _ hnext with hsame | ⟨-, later, hlater, hsame⟩
    · exact ⟨verdict, hfailed, hsame.trans heq⟩
    · exact ⟨later, hlater, hsame.trans (by rw [heq])⟩

theorem Charges.mono {other : LaneRun → Prop} (hcharges : Charges may sup next)
    (himp : ∀ run ∈ sup.runs, may run → other run) : Charges other sup next := by
  obtain ⟨change, hruns, hchange⟩ := hcharges.change
  refine ⟨⟨change, hruns, fun run hrun => ?_⟩, hcharges.settings, hcharges.stops,
    hcharges.observed⟩
  exact (hchange run hrun).imp_right fun ⟨hmay, hfailed⟩ => ⟨himp run hrun hmay, hfailed⟩

/-- The stop event may be set on top. -/
theorem Charges.stop (hcharges : Charges may sup next) :
    Charges may sup { next with stop := true } :=
  ⟨hcharges.change, hcharges.settings, fun _ => rfl, hcharges.observed⟩

/-- Each lane after a poll comes from one before it. -/
theorem Charges.of_mem (hcharges : Charges may sup next) {run : LaneRun}
    (hrun : run ∈ next.runs) : ∃ before ∈ sup.runs, Recast may before run := by
  obtain ⟨change, hruns, hchange⟩ := hcharges.change
  rw [hruns] at hrun
  obtain ⟨before, hbefore, rfl⟩ := List.mem_map.mp hrun
  exact ⟨before, hbefore, hchange before hbefore⟩

/-- A lane that may not be charged is left as it is. -/
theorem Charges.mem (hcharges : Charges may sup next) {run : LaneRun} (hrun : run ∈ sup.runs)
    (hnot : ¬ may run) : run ∈ next.runs := by
  obtain ⟨change, hruns, hchange⟩ := hcharges.change
  rcases hchange run hrun with heq | ⟨hmay, -⟩
  · rw [hruns]
    exact List.mem_map.mpr ⟨run, hrun, heq⟩
  · exact absurd hmay hnot

theorem Charges.lanes (hcharges : Charges may sup next) :
    next.runs.map LaneRun.lane = sup.runs.map LaneRun.lane := by
  obtain ⟨change, hruns, hchange⟩ := hcharges.change
  rw [hruns, List.map_map]
  exact List.map_congr_left fun run hrun => (hchange run hrun).lane.1

/-! ## The polls -/

theorem charges_fail {core : Nat} {message : String} {errorType : Option ErrorType}
    (hmay : ∀ run ∈ sup.runs, run.lane.coreId = core → may run) :
    Charges may sup (sup.fail core message errorType) := by
  refine ⟨⟨_, rfl, fun run hrun => ?_⟩, rfl, fun hstop => ?_, rfl⟩
  · by_cases hcore : run.lane.coreId = core
    · rw [if_pos hcore]
      exact .inr ⟨hmay run hrun hcore, _, rfl, rfl⟩
    · rw [if_neg hcore]
      exact .inl rfl
  · show (sup.stop || sup.stopOnFirstFailure) = true
    rw [hstop, Bool.true_or]

/-- The lane of a core is one. -/
def Distinct (sup : Supervisor) : Prop := (sup.runs.map fun run => run.lane.coreId).Nodup

theorem Distinct.eq (hdistinct : sup.Distinct) {run other : LaneRun} (hrun : run ∈ sup.runs)
    (hother : other ∈ sup.runs) (hcore : run.lane.coreId = other.lane.coreId) : run = other :=
  List.inj_on_of_nodup_map hdistinct hrun hother hcore

theorem Charges.distinct (hcharges : Charges may sup next) (hdistinct : sup.Distinct) :
    next.Distinct := by
  have hcores := congrArg (List.map Lane.coreId) hcharges.lanes
  rw [List.map_map, List.map_map] at hcores
  unfold Distinct
  exact hcores ▸ hdistinct

/-- Failing one lane that may be failed. -/
theorem charges_fail_of_mem (hdistinct : sup.Distinct) {run : LaneRun} (hrun : run ∈ sup.runs)
    (hmay : may run) {message : String} {errorType : Option ErrorType} :
    Charges may sup (sup.fail run.lane.coreId message errorType) :=
  charges_fail fun _ hother hcore => hdistinct.eq hother hrun hcore ▸ hmay

theorem leastLane_mem {condition : LaneRun → Bool} {run : LaneRun}
    (hleast : sup.leastLane condition = some run) : run ∈ sup.runs ∧ condition run = true :=
  List.mem_filter.mp (List.argmin_mem hleast)

theorem firstFault_mem {condition : LaneRun → Bool} {fault : Nat → Option String} {core : Nat}
    {message : String} (hfirst : sup.firstFault condition fault = some (core, message)) :
    ∃ run ∈ sup.runs, run.lane.coreId = core ∧ condition run = true := by
  obtain ⟨run, hrun, hfault⟩ := List.exists_of_findSome?_eq_some hfirst
  by_cases hcondition : condition run = true
  · rw [if_pos hcondition] at hfault
    obtain ⟨text, -, heq⟩ := Option.map_eq_some_iff.mp hfault
    exact ⟨run, hrun, (Prod.mk.inj heq).1, hcondition⟩
  · rw [if_neg hcondition] at hfault
    cases hfault

/-- The thermal watch charges a lane without a verdict. -/
theorem charges_thermalFailed (hdistinct : sup.Distinct) (reading : Thermal) (startup : Bool) :
    Charges (fun run => run.verdict.isNone = true) sup (sup.thermalFailed reading startup).2 := by
  unfold thermalFailed
  cases reading with
  | safe => exact Charges.refl _ sup
  | exceeded =>
      cases hleast : sup.leastLane (·.verdict.isNone) with
      | none => exact (Charges.refl _ sup).stop
      | some run =>
          obtain ⟨hrun, hnone⟩ := leastLane_mem hleast
          exact (charges_fail_of_mem hdistinct hrun hnone).stop
  | lost =>
      cases hleast : sup.leastLane (·.verdict.isNone) with
      | none => exact (Charges.refl _ sup).stop
      | some run =>
          obtain ⟨hrun, hnone⟩ := leastLane_mem hleast
          exact (charges_fail_of_mem hdistinct hrun hnone).stop

theorem charges_pollBackendErrors (hdistinct : sup.Distinct) (errors : Nat → Option String) :
    Charges (fun run => run.verdict.isNone = true) sup (sup.pollBackendErrors errors).2 := by
  unfold pollBackendErrors
  cases hfirst : sup.firstFault (·.verdict.isNone) errors with
  | none => exact Charges.refl _ sup
  | some found =>
      obtain ⟨run, hrun, hcore, hnone⟩ := firstFault_mem hfirst
      show Charges _ sup (sup.fail found.1 found.2 none)
      rw [← hcore]
      exact charges_fail_of_mem hdistinct hrun hnone

theorem charges_pollContainment (hdistinct : sup.Distinct) (fault : Nat → Option String) :
    Charges (fun run => run.running = true) sup (sup.pollContainment fault).2 := by
  unfold pollContainment
  cases hfirst : sup.firstFault LaneRun.running fault with
  | none => exact Charges.refl _ sup
  | some found =>
      obtain ⟨run, hrun, hcore, hrunning⟩ := firstFault_mem hfirst
      show Charges _ sup (sup.fail found.1 found.2 (some .startup))
      rw [← hcore]
      exact charges_fail_of_mem hdistinct hrun hrunning

theorem charges_pollStalls (hdistinct : sup.Distinct) (stalled : Nat → Bool) :
    Charges (fun run => run.running = true) sup (sup.pollStalls stalled).2 := by
  unfold pollStalls
  cases hfind : sup.runs.find? fun run => run.running && stalled run.lane.coreId with
  | none => exact Charges.refl _ sup
  | some run =>
      have hrunning := List.find?_some hfind
      simp only [Bool.and_eq_true] at hrunning
      exact charges_fail_of_mem hdistinct (List.mem_of_find?_eq_some hfind) hrunning.1

/-! ### The kernel log -/

/-- The lanes an event may be charged to. -/
def MayHear (force : Bool) (run : LaneRun) : Prop :=
  run.unfailed = true ∨ force = true ∧ ∃ verdict, run.verdict = some verdict ∧
    verdict.errorType ∈ [some ErrorType.startup, some .stall, some .killed, some .timeout]

theorem chargedLane_mem {event : MCEEvent} {run : LaneRun}
    (hcharged : sup.chargedLane event = some run) : run ∈ sup.runs := by
  unfold chargedLane at hcharged
  split at hcharged
  · exact (leastLane_mem hcharged).1
  · exact List.mem_reverse.mp (List.mem_of_find?_eq_some hcharged)

theorem mayHear_of_charged {force : Bool} {event : MCEEvent} {run : LaneRun}
    (hcharged : (run.unfailed || canOverride run event force) = true) : MayHear force run := by
  rcases Bool.or_eq_true_iff.mp hcharged with hunfailed | hoverride
  · exact .inl hunfailed
  · unfold canOverride at hoverride
    simp only [Bool.and_eq_true, Option.any_eq_true, decide_eq_true_eq] at hoverride
    obtain ⟨⟨hforce, -⟩, verdict, hverdict, hclass⟩ := hoverride
    exact .inr ⟨hforce, verdict, hverdict, hclass⟩

theorem charges_applyMceEvent {force hit : Bool} (hdistinct : sup.Distinct) (event : MCEEvent) :
    Charges (MayHear force) sup (applyMceEvent force (hit, sup) event).2 := by
  unfold applyMceEvent
  cases hcharged : sup.chargedLane event with
  | none => exact Charges.refl _ sup
  | some run =>
      by_cases hheard : (run.unfailed || canOverride run event force) = true
      · simp only [hheard, if_true]
        have hfail : Charges (MayHear force) sup (sup.fail run.lane.coreId
            (mceMessage sup.phase event)
            (some (if event.cpu = -1 then .mceUnattributed else .mce))) :=
          charges_fail_of_mem hdistinct (chargedLane_mem hcharged) (mayHear_of_charged hheard)
        refine ⟨hfail.change, hfail.settings, fun hstop => ?_, hfail.observed⟩
        rw [hfail.stops hstop, Bool.true_or]
      · simp only [hheard]
        exact Charges.refl _ sup

theorem charges_foldEvents {force : Bool} {events : List MCEEvent} {hit : Bool}
    (hdistinct : sup.Distinct) :
    Charges (MayHear force) sup (events.foldl (applyMceEvent force) (hit, sup)).2 := by
  induction events generalizing sup hit with
  | nil => exact Charges.refl _ sup
  | cons event rest ih =>
      have hfirst := @charges_applyMceEvent sup force hit hdistinct event
      rw [List.foldl_cons]
      exact hfirst.trans (ih (hfirst.distinct hdistinct))

/-- A lane that was charged already may be failed again. -/
theorem Charges.fail (hcharges : Charges may sup next) {core : Nat} {message : String}
    {errorType : Option ErrorType}
    (hmay : ∀ run ∈ sup.runs, run.lane.coreId = core → may run) :
    Charges may sup (next.fail core message errorType) := by
  obtain ⟨change, hruns, hchange⟩ := hcharges.change
  refine ⟨⟨_, by
      rw [Supervisor.fail, Supervisor.onLane]
      simp only [hruns, List.map_map]
      rfl, fun run hrun => ?_⟩,
    hcharges.settings, fun hstop => ?_, hcharges.observed⟩
  · have hlane := (hchange run hrun).lane.1
    rw [Function.comp_apply]
    by_cases hcore : (change run).lane.coreId = core
    · rw [if_pos hcore]
      refine .inr ⟨hmay run hrun (hlane ▸ hcore),
        { coreId := (change run).lane.coreId
          passed := false
          errorMessage := some message
          errorType := some (errorType.getD (classifyError message)) }, rfl, ?_⟩
      rcases hchange run hrun with heq | ⟨-, verdict, -, heq⟩ <;> rw [heq]
    · rw [if_neg hcore]
      exact hchange run hrun
  · show (next.stop || next.stopOnFirstFailure) = true
    rw [hcharges.stops hstop, Bool.true_or]

/-- A log that cannot be read is charged to every lane that has not failed. -/
theorem charges_failUnfailed (hdistinct : sup.Distinct) (message : String)
    (errorType : ErrorType) :
    Charges (fun run => run.unfailed = true) sup (sup.failUnfailed message errorType) := by
  have hfold : ∀ (runs : List LaneRun) (current : Supervisor), (∀ run ∈ runs, run ∈ sup.runs) →
      Charges (fun run => run.unfailed = true) sup current →
      Charges (fun run => run.unfailed = true) sup
        (runs.foldl (fun sup run =>
          if run.unfailed then sup.fail run.lane.coreId message errorType else sup) current) := by
    intro runs
    induction runs with
    | nil => exact fun _ _ hcurrent => hcurrent
    | cons run rest ih =>
        intro current hmem hcurrent
        obtain ⟨hrun, hrest⟩ := List.forall_mem_cons.mp hmem
        refine ih _ hrest ?_
        by_cases hunfailed : run.unfailed = true
        · simp only [hunfailed, if_true]
          exact hcurrent.fail fun _ hother hcore => hdistinct.eq hother hrun hcore ▸ hunfailed
        · simp only [hunfailed]
          exact hcurrent
  exact hfold sup.runs sup (fun _ => id) (Charges.refl _ sup)

/-- The events a read of the kernel log comes to. -/
def KernelRead.seen : KernelRead → List MCEEvent
  | .events events => events
  | .failed _ => []

/-- A read of the kernel log charges lanes that have not failed, and at the end also those
whose failure was the apparatus's. -/
theorem charges_applyMceEvents (hdistinct : sup.Distinct) (read : KernelRead) (force : Bool) :
    Charges (MayHear force) { sup with observed := sup.observed ++ KernelRead.seen read }
      (sup.applyMceEvents read force).2 := by
  cases read with
  | failed detail =>
      have hfail : Charges (MayHear force) sup
          (sup.failUnfailed (monitorMessage detail) .startup) :=
        (charges_failUnfailed hdistinct _ _).mono fun _ _ hunfailed => .inl hunfailed
      refine ⟨hfail.change, hfail.settings, fun _ => rfl, ?_⟩
      show (sup.failUnfailed (monitorMessage detail) .startup).observed = sup.observed ++ []
      rw [List.append_nil, hfail.observed]
  | events events => exact charges_foldEvents hdistinct

/-! ### What an event does -/

/-- An event that names a CPU is charged to no lane of other CPUs. -/
theorem charges_named {force hit : Bool} (hdistinct : sup.Distinct) {event : MCEEvent}
    (hcpu : event.cpu ≠ -1) :
    Charges (fun run => event.cpu ∈ run.lane.mceCpus) sup
      (applyMceEvent force (hit, sup) event).2 := by
  unfold applyMceEvent
  cases hcharged : sup.chargedLane event with
  | none => exact Charges.refl _ sup
  | some run =>
      have hnamed : event.cpu ∈ run.lane.mceCpus := by
        unfold chargedLane at hcharged
        rw [if_neg hcpu] at hcharged
        simpa using List.find?_some hcharged
      by_cases hheard : (run.unfailed || canOverride run event force) = true
      · simp only [hheard, if_true]
        have hfail : Charges (fun run => event.cpu ∈ run.lane.mceCpus) sup
            (sup.fail run.lane.coreId (mceMessage sup.phase event)
              (some (if event.cpu = -1 then .mceUnattributed else .mce))) :=
          charges_fail_of_mem hdistinct (chargedLane_mem hcharged) hnamed
        refine ⟨hfail.change, hfail.settings, fun hstop => ?_, hfail.observed⟩
        rw [hfail.stops hstop, Bool.true_or]
      · simp only [hheard]
        exact Charges.refl _ sup

/-- Lanes share no CPU, and their CPUs have numbers. -/
structure Apart (sup : Supervisor) : Prop where
  disjoint : ∀ run ∈ sup.runs, ∀ other ∈ sup.runs, ∀ cpu ∈ run.lane.mceCpus,
    cpu ∈ other.lane.mceCpus → run.lane = other.lane
  numbered : ∀ run ∈ sup.runs, ∀ cpu ∈ run.lane.mceCpus, 0 ≤ cpu

/-- The same lanes, whatever became of their runs. -/
theorem Apart.of_lanes (hapart : sup.Apart)
    (hlanes : ∀ run ∈ next.runs, ∃ before ∈ sup.runs, run.lane = before.lane) : next.Apart := by
  constructor
  · intro run hrun other hother cpu hcpu hcpu'
    obtain ⟨before, hbefore, hlane⟩ := hlanes run hrun
    obtain ⟨before', hbefore', hlane'⟩ := hlanes other hother
    rw [hlane] at hcpu ⊢
    rw [hlane'] at hcpu' ⊢
    exact hapart.disjoint before hbefore before' hbefore' cpu hcpu hcpu'
  · intro run hrun cpu hcpu
    obtain ⟨before, hbefore, hlane⟩ := hlanes run hrun
    rw [hlane] at hcpu
    exact hapart.numbered before hbefore cpu hcpu

theorem Charges.apart (hcharges : Charges may sup next) (hapart : sup.Apart) : next.Apart := by
  apply hapart.of_lanes
  intro run hrun
  obtain ⟨before, hbefore, hrecast⟩ := hcharges.of_mem hrun
  exact ⟨before, hbefore, hrecast.lane.1⟩

/-- The lane an event names is the one it is charged to. -/
theorem chargedLane_named (hdistinct : sup.Distinct) (hapart : sup.Apart) {event : MCEEvent}
    {run : LaneRun} (hrun : run ∈ sup.runs) (hcpu : event.cpu ∈ run.lane.mceCpus) :
    sup.chargedLane event = some run := by
  have hne : event.cpu ≠ -1 := by
    have hnonneg := hapart.numbered run hrun event.cpu hcpu
    omega
  unfold chargedLane
  rw [if_neg hne]
  cases hfind : sup.runs.reverse.find? fun run => decide (event.cpu ∈ run.lane.mceCpus) with
  | none =>
      have hnone := List.find?_eq_none.mp hfind run (List.mem_reverse.mpr hrun)
      exact absurd (decide_eq_true hcpu) hnone
  | some found =>
      have hfound := List.mem_reverse.mp (List.mem_of_find?_eq_some hfind)
      have hnamed : event.cpu ∈ found.lane.mceCpus := by simpa using List.find?_some hfind
      have hlane := hapart.disjoint run hrun found hfound event.cpu hcpu hnamed
      rw [hdistinct.eq hrun hfound (congrArg Lane.coreId hlane)]

/-- An event leaves the lane it names failed. -/
theorem failed_of_named {force hit : Bool} (hdistinct : sup.Distinct) (hapart : sup.Apart)
    {event : MCEEvent} {run : LaneRun}
    (hrun : run ∈ (applyMceEvent force (hit, sup) event).2.runs)
    (hcpu : event.cpu ∈ run.lane.mceCpus) : run.Failed := by
  have hcharges := @charges_applyMceEvent sup force hit hdistinct event
  obtain ⟨before, hbefore, hrecast⟩ := hcharges.of_mem hrun
  rw [hrecast.lane.1] at hcpu
  have hcharged := chargedLane_named hdistinct hapart hbefore hcpu
  by_cases hunfailed : before.unfailed = true
  · unfold applyMceEvent at hrun
    simp only [hcharged, hunfailed, Bool.true_or, if_true] at hrun
    obtain ⟨other, -, heq⟩ := List.mem_map.mp hrun
    by_cases hcore : other.lane.coreId = before.lane.coreId
    · rw [if_pos hcore] at heq
      rw [← heq]
      rfl
    · rw [if_neg hcore] at heq
      rw [heq, hrecast.lane.1] at hcore
      exact absurd rfl hcore
  · exact hrecast.failed_of (Bool.eq_false_iff.mpr hunfailed)

/-- Every event of a read leaves the lane it names failed. -/
theorem failed_of_fold {force : Bool} {events : List MCEEvent} {hit : Bool}
    (hdistinct : sup.Distinct) (hapart : sup.Apart) {run : LaneRun}
    (hrun : run ∈ (events.foldl (applyMceEvent force) (hit, sup)).2.runs) {event : MCEEvent}
    (hevent : event ∈ events) (hcpu : event.cpu ∈ run.lane.mceCpus) : run.Failed := by
  induction events generalizing sup hit with
  | nil => exact absurd hevent List.not_mem_nil
  | cons first rest ih =>
      have hcharges := @charges_applyMceEvent sup force hit hdistinct first
      rw [List.foldl_cons] at hrun
      have hdistinct' := hcharges.distinct hdistinct
      rcases List.mem_cons.mp hevent with rfl | hevent
      · obtain ⟨before, hbefore, hrecast⟩ := (charges_foldEvents hdistinct').of_mem hrun
        rw [hrecast.lane.1] at hcpu
        exact hrecast.failed_of (failed_of_named hdistinct hapart hbefore hcpu)
      · exact ih hdistinct' (hcharges.apart hapart) hrun hevent

theorem failed_of_read {read : KernelRead} {force : Bool} (hdistinct : sup.Distinct)
    (hapart : sup.Apart) {run : LaneRun} (hrun : run ∈ (sup.applyMceEvents read force).2.runs)
    {event : MCEEvent} (hevent : event ∈ KernelRead.seen read)
    (hcpu : event.cpu ∈ run.lane.mceCpus) : run.Failed := by
  cases read with
  | failed detail => exact absurd hevent List.not_mem_nil
  | events events =>
      have hapart' : Apart { sup with observed := sup.observed ++ events } :=
        ⟨hapart.disjoint, hapart.numbered⟩
      have hdistinct' : Distinct { sup with observed := sup.observed ++ events } := hdistinct
      exact failed_of_fold hdistinct' hapart' hrun hevent hcpu

/-! ## When a poll ends the loop -/

/-- The run is to be stopped, or every lane has its verdict. -/
def Settled (sup : Supervisor) : Prop :=
  sup.stop = true ∨ ∀ run ∈ sup.runs, run.verdict.isSome = true

/-- More than one lane run only where the first failure stops them all. -/
def Alone (sup : Supervisor) : Prop := sup.stopOnFirstFailure = false → sup.runs.length ≤ 1

theorem Charges.alone (hcharges : Charges may sup next) (halone : sup.Alone) : next.Alone := by
  intro hsettings
  have hlength := congrArg List.length hcharges.lanes
  rw [List.length_map, List.length_map] at hlength
  rw [hlength]
  exact halone (hcharges.settings ▸ hsettings)

theorem eq_of_length_le_one {runs : List LaneRun} (hlength : runs.length ≤ 1)
    {run other : LaneRun} (hrun : run ∈ runs) (hother : other ∈ runs) : run = other := by
  cases runs with
  | nil => cases hrun
  | cons first rest =>
      obtain rfl : rest = [] := by
        rw [List.length_cons] at hlength
        exact List.eq_nil_of_length_eq_zero (by omega)
      rw [List.mem_singleton.mp hrun, List.mem_singleton.mp hother]

/-- A failure of a lane settles the run: it stops it, or the lane was the only one. -/
theorem settled_fail (halone : sup.Alone) {core : Nat} {message : String}
    {errorType : Option ErrorType} (hcore : ∃ run ∈ sup.runs, run.lane.coreId = core) :
    (sup.fail core message errorType).Settled := by
  cases hsettings : sup.stopOnFirstFailure with
  | true =>
      left
      show (sup.stop || sup.stopOnFirstFailure) = true
      rw [hsettings, Bool.or_true]
  | false =>
      right
      intro run hrun
      obtain ⟨only, honly, rfl⟩ := hcore
      obtain ⟨before, hbefore, rfl⟩ := List.mem_map.mp hrun
      rw [eq_of_length_le_one (halone hsettings) hbefore honly, if_pos rfl]
      rfl

theorem Charges.settled (hcharges : Charges may sup next) (hsettled : sup.Settled) :
    next.Settled := by
  refine hsettled.imp hcharges.stops fun hall run hrun => ?_
  obtain ⟨before, hbefore, hrecast⟩ := hcharges.of_mem hrun
  rcases hrecast with rfl | ⟨-, verdict, -, rfl⟩
  · exact hall _ hbefore
  · rfl

end Supervisor

end Engine
end CoreCycler
