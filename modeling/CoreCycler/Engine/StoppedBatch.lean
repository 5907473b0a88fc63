import CoreCycler.Engine.LaunchedLanes

/-!
# A batch that is to stop

Once the stop event is set, a batch launches nothing more, and each of its stages leads on to
the end.  What it may still do is fail a lane that was not launched: `Spared` says of an event
that it does not.
-/

namespace CoreCycler
namespace Engine

open Library Supervisor

namespace Supervisor

/-! ## The closing read of the kernel log -/

/-- Each event of the closing read is charged to a launched lane, if to any. -/
def SparesEvents : Bool × Supervisor → List MCEEvent → Prop
  | _, [] => True
  | state, event :: rest =>
      (∀ run, state.2.chargedLane event = some run →
        (run.unfailed || canOverride run event true) = true → run.launched = true) ∧
      SparesEvents (applyMceEvent true state event) rest

/-- The closing read fails launched lanes only. -/
def Spares (sup : Supervisor) : KernelRead → Prop
  | .failed _ => ∀ run ∈ sup.runs, run.unfailed = true → run.launched = true
  | .events events =>
      SparesEvents (false, { sup with observed := sup.observed ++ events }) events

variable {sup : Supervisor}

theorem moves_sparedEvent {hit : Bool} (hdistinct : sup.Distinct) {event : MCEEvent}
    (hspares : ∀ run, sup.chargedLane event = some run →
      (run.unfailed || canOverride run event true) = true → run.launched = true) :
    Moves (fun run => run.launched = true) sup (applyMceEvent true (hit, sup) event).2 := by
  unfold applyMceEvent
  cases hcharged : sup.chargedLane event with
  | none => exact .refl _ sup
  | some run =>
      by_cases hheard : (run.unfailed || canOverride run event true) = true
      · simp only [hheard, if_true]
        have hfail : Moves (fun run => run.launched = true) sup
            (sup.fail run.lane.coreId (mceMessage sup.phase event)
              (some (if event.cpu = -1 then .mceUnattributed else .mce))) :=
          .of_charges (charges_fail_of_mem hdistinct (chargedLane_mem hcharged)
            (hspares run hcharged hheard))
        refine ⟨hfail.change, hfail.settings, fun hstop => ?_⟩
        rw [hfail.stops hstop, Bool.true_or]
      · simp only [hheard]
        exact .refl _ sup

theorem moves_sparedEvents {events : List MCEEvent} {hit : Bool} (hdistinct : sup.Distinct)
    (hspares : SparesEvents (hit, sup) events) :
    Moves (fun run => run.launched = true) sup (events.foldl (applyMceEvent true) (hit, sup)).2 := by
  induction events generalizing sup hit with
  | nil => exact .refl _ sup
  | cons event rest ih =>
      have hfirst := @moves_sparedEvent sup hit hdistinct event hspares.1
      rw [List.foldl_cons]
      exact hfirst.trans (ih (hfirst.distinct hdistinct) hspares.2)
        fun _ _ _ hsame hlaunched => hsame ▸ hlaunched

theorem moves_spared {read : KernelRead} (hdistinct : sup.Distinct) (hspares : sup.Spares read) :
    Moves (fun run => run.launched = true) sup (sup.applyMceEvents read true).2 := by
  cases read with
  | failed detail =>
      exact (Moves.of_charges
        ((charges_failUnfailed hdistinct (monitorMessage detail) .startup).mono hspares)).stop
  | events events =>
      have hdistinct' : Distinct { sup with observed := sup.observed ++ events } := hdistinct
      have hmoves := moves_sparedEvents hdistinct' hspares
      exact ⟨hmoves.change, hmoves.settings, hmoves.stops⟩

end Supervisor

/-! ## The stages -/

/-- A stage of the run itself, and not what happens beside it. -/
def SupervisionEvent.ofRun : SupervisionEvent → Bool
  | .wait _ | .requestStop | .forceTeardown _ _ => false
  | _ => true

/-- How many stages a run has left at most once it is to stop. -/
def Phase.remaining (lanes : Nat) : Phase → Nat
  | .done => 0
  | .classing rest => rest.length + 1
  | .closing => lanes + 2
  | .terminating rest => 2 * rest.length + lanes + 3
  | .draining _ rest => 2 * rest.length + lanes + 4
  | .ending => 3 * lanes + 4
  | .looping => 3 * lanes + 5
  | .entering => 3 * lanes + 6
  | .launching _ => 3 * lanes + 7
  | .starting => 3 * lanes + 8
  | .checkingDeadline => 3 * lanes + 6
  | .pollingStalls => 3 * lanes + 7
  | .pollingContainment => 3 * lanes + 8
  | .checkingRunning => 3 * lanes + 9
  | .pollingExits rest => 4 * rest.length + 3 * lanes + 10
  | .classingExited _ rest => 4 * rest.length + 3 * lanes + 11
  | .drainingExited _ rest => 4 * rest.length + 3 * lanes + 12
  | .stoppingExited _ rest => 4 * rest.length + 3 * lanes + 13
  | .readingErrors => 7 * lanes + 11
  | .readingKernel => 7 * lanes + 12
  | .readingThermal => 7 * lanes + 13

namespace Batch

variable {batch next : Batch} {event : SupervisionEvent} {classes : CharClasses}

/-- The event fails no lane that was not launched. -/
def Spared (batch : Batch) : SupervisionEvent → Prop
  | .checkThermal reading => batch.phase = .starting → reading = .safe
  | .launch outcome => outcome.checksStop = true
  | .readKernel read => batch.phase = .closing → batch.sup.Spares read
  | _ => True

/-- **A batch that is to stop** launches no lane, and what it is spared leaves those that were
not launched without a verdict. -/
theorem moves_stopped (hplaced : batch.Placed) (hstop : batch.sup.stop = true)
    (hspared : batch.Spared event) (hstep : batch.step classes event = some next) :
    Moves (fun run => run.launched = true) batch.sup next.sup := by
  apply moves_step hplaced (fun _ => id) ?_ hstep
  cases event with
  | checkThermal reading => exact fun hphase => .inl (hspared hphase)
  | launch outcome => exact fun _ _ _ => .inl ⟨hstop, hspared⟩
  | readKernel read => exact fun hphase => moves_spared hplaced.distinct (hspared hphase)
  | _ => trivial

/-- What happens beside a run leaves its stage. -/
theorem phase_beside (hbeside : event.ofRun = false)
    (hstep : batch.step classes event = some next) : next.phase = batch.phase := by
  cases stage_of_step hstep with
  | wait seconds hforward => rfl
  | requestStop => rfl
  | forceTeardown core teardown hopen => exact phase_terminateRun
  | _ => cases hbeside

theorem phase_launch_stopped {core : Nat} {rest : List Nat} {outcome : Launch}
    (hstop : batch.sup.stop = true) : (batch.launch core rest outcome).phase = .entering := by
  cases outcome with
  | captureFailed exc => rfl
  | refused exc => rfl
  | started contained dutyDriver => rw [launch, if_pos hstop]
  | dutyFailed contained dutyDriver exc => rw [launch, if_pos hstop]

theorem length_cores : batch.cores.length = batch.sup.runs.length := List.length_map _

/-- A poll brings the end nearer if both of its outcomes do. -/
theorem remaining_ite {ends : Prop} [Decidable ends] {first second : Phase} {lanes bound : Nat}
    (hfirst : first.remaining lanes < bound) (hsecond : second.remaining lanes < bound) :
    (if ends then first else second).remaining lanes < bound := by
  split
  · exact hfirst
  · exact hsecond

theorem remaining_readErrors {results : Nat → ResultsFile} (hphase : batch.phase = .readingErrors) :
    (batch.readErrors classes results).phase.remaining batch.cores.length <
      batch.phase.remaining batch.cores.length := by
  rw [hphase, readErrors]
  dsimp only
  split
  · dsimp only
    split_ifs <;> simp only [Phase.remaining] <;> omega
  · simp only [Phase.remaining]
    omega

/-- The lane that is polled is stopped next if it has exited, and passed over otherwise. -/
theorem remaining_pollExit {core : Nat} {rest : List Nat} {exit : Option Int}
    {dutyFault : Option String} (hphase : batch.phase = .pollingExits (core :: rest)) :
    (batch.pollExit core rest exit dutyFault).phase.remaining batch.cores.length <
      batch.phase.remaining batch.cores.length := by
  rw [hphase, pollExit]
  split
  · split <;> simp only [Phase.remaining, List.length_cons] <;> omega
  · simp only [Phase.remaining, List.length_cons]
    omega

theorem remaining_classifyExited {core : Nat} {rest : List Nat} {results : ResultsFile}
    (hphase : batch.phase = .classingExited core rest) :
    (batch.classifyExited classes core rest results).phase.remaining batch.cores.length <
      batch.phase.remaining batch.cores.length := by
  rw [hphase, classifyExited]
  dsimp only
  split_ifs <;> simp only [Phase.remaining] <;> omega

theorem remaining_onset (hstop : batch.sup.stop = true) (honset : Onset batch next) :
    next.phase.remaining batch.cores.length < batch.phase.remaining batch.cores.length := by
  cases honset with
  | enter hphase => simp [hphase, Phase.remaining]
  | loop hphase =>
      rw [hphase]
      exact remaining_ite (by simp only [Phase.remaining]; omega)
        (by simp only [Phase.remaining]; omega)
  | poll hphase =>
      dsimp only
      -- The loop heeds the stop only here, in front of the next round.
      rw [hphase, if_pos hstop]
      simp only [Phase.remaining]
      omega
  | exitsPolled hphase => simp [hphase, Phase.remaining]
  | running hphase =>
      rw [hphase]
      exact remaining_ite (by simp only [Phase.remaining]; omega)
        (by simp only [Phase.remaining]; omega)
  | deadline hphase =>
      rw [hphase]
      exact remaining_ite (by simp only [Phase.remaining]; omega)
        (by simp only [Phase.remaining]; omega)
  | ending hphase =>
      simp only [hphase, Phase.remaining]
      omega
  | terminated hphase => simp [hphase, Phase.remaining]
  | classed hphase => simp [hphase, Phase.remaining]

/-- **A stopped batch ends**: each of its stages brings the end nearer. -/
theorem remaining_step (hofRun : event.ofRun = true) (hstop : batch.sup.stop = true)
    (hstep : batch.step classes event = some next) :
    next.phase.remaining batch.cores.length < batch.phase.remaining batch.cores.length := by
  cases stage_of_step hstep with
  | wait seconds hforward => cases hofRun
  | requestStop => cases hofRun
  | forceTeardown core teardown hopen => cases hofRun
  | checkStart reading hphase =>
      rw [hphase]
      exact remaining_ite (by simp only [Phase.remaining]; omega)
        (by simp only [Phase.remaining]; omega)
  | readThermal reading hphase =>
      rw [hphase]
      exact remaining_ite (by simp only [Phase.remaining]; omega)
        (by simp only [Phase.remaining]; omega)
  | launch core rest outcome hphase =>
      -- A launch that finds the stop ends the launching.
      rw [phase_launch_stopped hstop, hphase]
      simp only [Phase.remaining]
      omega
  | readKernel read hphase =>
      rw [hphase]
      exact remaining_ite (by simp only [Phase.remaining]; omega)
        (by simp only [Phase.remaining]; omega)
  | closeKernel read hphase => simp [hphase, Phase.remaining]
  | readErrors results hphase => exact remaining_readErrors hphase
  | pollExit core rest exit dutyFault hphase => exact remaining_pollExit hphase
  | pollContainment fault hphase =>
      rw [hphase]
      exact remaining_ite (by simp only [Phase.remaining]; omega)
        (by simp only [Phase.remaining]; omega)
  | pollStalls stalled hphase =>
      rw [hphase]
      exact remaining_ite (by simp only [Phase.remaining]; omega)
        (by simp only [Phase.remaining]; omega)
  | stopExited core rest teardown hphase => simp [hphase, Phase.remaining]
  | stopLane core rest teardown hphase =>
      simp only [hphase, Phase.remaining, List.length_cons]
      omega
  | drainExited core rest capture hphase => simp [hphase, Phase.remaining]
  | drainLane core rest capture hphase => simp [hphase, Phase.remaining]
  | classifyExited core rest results hphase => exact remaining_classifyExited hphase
  | classifyLane core rest results hphase => simp [hphase, Phase.remaining]
  | proceed honset => exact remaining_onset hstop honset

/-- A batch that is not done has a stage to take, and one that spares the lanes that were not
launched. -/
theorem exists_step (classes : CharClasses) (hdone : batch.phase ≠ .done) :
    ∃ event, event.ofRun = true ∧ batch.Spared event ∧ (batch.step classes event).isSome := by
  have hproceed (hnext : (batch.proceed).isSome) : ∃ event, event.ofRun = true ∧
      batch.Spared event ∧ (batch.step classes event).isSome := ⟨.proceed, rfl, trivial, hnext⟩
  cases hphase : batch.phase with
  | done => exact absurd hphase hdone
  | starting => exact ⟨.checkThermal .safe, rfl, fun _ => rfl, by rw [step, hphase]; rfl⟩
  | launching rest =>
      cases rest with
      | nil => exact hproceed (by rw [proceed, hphase]; rfl)
      | cons core rest =>
          exact ⟨.launch (.started false false), rfl, rfl, by rw [step, hphase]; rfl⟩
  | entering => exact hproceed (by rw [proceed, hphase]; rfl)
  | looping => exact hproceed (by rw [proceed, hphase]; rfl)
  | readingThermal => exact ⟨.checkThermal .safe, rfl, fun _ => rfl, by rw [step, hphase]; rfl⟩
  | readingKernel => exact ⟨.readKernel (.events []), rfl, fun _ => trivial, by rw [step, hphase]; rfl⟩
  | readingErrors => exact ⟨.readErrors fun _ => .missing, rfl, trivial, by rw [step, hphase]; rfl⟩
  | pollingExits rest =>
      cases rest with
      | nil => exact hproceed (by rw [proceed, hphase]; rfl)
      | cons core rest => exact ⟨.pollExit none none, rfl, trivial, by rw [step, hphase]; rfl⟩
  | stoppingExited core rest => exact ⟨.terminate {}, rfl, trivial, by rw [step, hphase]; rfl⟩
  | drainingExited core rest =>
      exact ⟨.drain (.read "" ""), rfl, trivial, by rw [step, hphase]; rfl⟩
  | classingExited core rest => exact ⟨.classify .missing, rfl, trivial, by rw [step, hphase]; rfl⟩
  | checkingRunning => exact hproceed (by rw [proceed, hphase]; rfl)
  | pollingContainment =>
      exact ⟨.pollContainment fun _ => none, rfl, trivial, by rw [step, hphase]; rfl⟩
  | pollingStalls => exact ⟨.pollStalls fun _ => false, rfl, trivial, by rw [step, hphase]; rfl⟩
  | checkingDeadline => exact hproceed (by rw [proceed, hphase]; rfl)
  | ending => exact hproceed (by rw [proceed, hphase]; rfl)
  | terminating rest =>
      cases rest with
      | nil => exact hproceed (by rw [proceed, hphase]; rfl)
      | cons core rest => exact ⟨.terminate {}, rfl, trivial, by rw [step, hphase]; rfl⟩
  | draining core rest => exact ⟨.drain (.read "" ""), rfl, trivial, by rw [step, hphase]; rfl⟩
  | closing => exact ⟨.readKernel (.events []), rfl, fun _ => trivial, by rw [step, hphase]; rfl⟩
  | classing rest =>
      cases rest with
      | nil => exact hproceed (by rw [proceed, hphase]; rfl)
      | cons core rest => exact ⟨.classify .missing, rfl, trivial, by rw [step, hphase]; rfl⟩

end Batch

end Engine
end CoreCycler
