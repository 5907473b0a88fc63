import CoreCycler.Library.StepSystem
import CoreCycler.Tuner.TrackVerdicts

/-!
# Runs of the engine's cores

`CoreEvent` is everything the engine does to a core's state between `start` and
the end of a session, with what the environment decides (a verdict, the offset
resident at a crash, the hours banked) carried by the event.  `coreSystem` is one
core under such events, and `sessionSystem` a session of cores, in which every
event belongs to one of them.

Each step is a move of the core's track; invariants of runs are proved there.
-/

namespace CoreCycler
namespace Tuner

open Library TunerConfig

/-- What the engine keeps about a core beside its place in the search. -/
structure CoreBooks where
  inTest : Bool
  crashCooldown : Nat
  thermalAborts : Nat
  cumulativeTestTime : ℚ
  batteryIndex : Nat
  suspicion : ℚ

/-- Everything that happens to the state of a core. -/
inductive CoreEvent
  /-- The core is picked for a slot. -/
  | launch
  /-- A slot, or the step a hunt left unanswered, is answered. -/
  | verdict (passed : Bool)
  /-- A crash, a machine check or a hunt blames the core at the resident offset. -/
  | penalty (resident : Int) (steps : Option Int) (countCrash : Bool)
  /-- A confirmed core with `hours` banked is picked for an annealing probe. -/
  | anneal (hours : ℚ)
  /-- Validation backs the core off. -/
  | backOff
  /-- A quarantined session is re-opened. -/
  | reengage (survived : Int)
  /-- A resume finds no logged pass behind a confirmed offset. -/
  | rollback (mostAggressivePass : Option Int)
  /-- A finished profile is validated again. -/
  | revalidate
  /-- Flags, counters and times are updated. -/
  | account (books : CoreBooks)

def keepBooks (cs : CoreState) (books : CoreBooks) : CoreState :=
  { cs with
    inTest := books.inTest
    crashCooldown := books.crashCooldown
    thermalAborts := books.thermalAborts
    cumulativeTestTime := books.cumulativeTestTime
    batteryIndex := books.batteryIndex
    suspicion := books.suspicion }

/-- The core after an event, or `none` when the engine cannot raise it. -/
def stepCore (config : TunerConfig) (cs : CoreState) : CoreEvent → Option CoreState
  | .launch => if cs.phase = .confirmed then none else some (prepareSlot config cs)
  | .verdict passed =>
      if isStepped cs.phase then some (advanceCore config cs passed).core else none
  | .penalty resident steps countCrash =>
      if 1 ≤ steps.getD config.crashPenaltySteps then
        some (penalizeResident config cs resident steps countCrash).core
      else none
  | .anneal hours => if mayAnneal config cs hours then some (startAnneal config cs).core else none
  | .backOff => if cs.phase = .confirmed then backoffCore config cs else none
  | .reengage survived => some (reengageCore config cs survived)
  | .rollback mostAggressivePass =>
      if cs.phase = .confirmed then some (rollbackCoreToEvidence cs mostAggressivePass) else none
  | .revalidate =>
      if cs.phase = .confirmed then cs.bestOffset.map (revalidateCore cs) else none
  | .account books => some (keepBooks cs books)

/-- One core of a session, from its seed and the offset read back at `start`. -/
def coreSystem (config : TunerConfig) : StepSystem CoreState CoreEvent where
  Start cs := ∃ coreId seed readBack, cs = startCore config coreId seed readBack
  step := stepCore config

/-- The cores of a session; an event belongs to one of them. -/
abbrev sessionSystem (Core : Type*) [DecidableEq Core] (config : TunerConfig) :
    StepSystem (Core → CoreState) (Core × CoreEvent) :=
  (coreSystem config).indexed Core

variable {config : TunerConfig} {cs next : CoreState}

/-! ## Every step is a move of the track -/

theorem advanceFailedConfirm_track (hvalid : config.Valid) :
    trackOf config (advanceFailedConfirm config cs) =
      { trackOf config cs with
        phase := .backoffPreconfirm
        best := some ((trackOf config cs).stepBack config.fineStep)
        current := (trackOf config cs).stepBack config.fineStep } := by
  have hdir := hvalid.direction
  have hfine := hvalid.fineStep_pos
  rw [advanceFailedConfirm]
  cases hbest : cs.bestOffset with
  | none =>
      have hstay : max (config.depth cs.baselineOffset - config.fineStep)
          (config.depth cs.baselineOffset) = config.depth cs.baselineOffset := by omega
      simp [trackOf, Track.stepBack, Track.known, hbest, hstay]
  | some best =>
      simp only [atOrPastBaseline, atOrPast_iff hdir, depth_sub hdir]
      split_ifs with hfloor
      · simp [trackOf, Track.stepBack, Track.known, hbest, max_eq_right hfloor]
      · simp [trackOf, Track.stepBack, Track.known, hbest, depth_sub hdir,
          max_eq_left (not_le.mp hfloor).le]

theorem leaveSettled_track (hvalid : config.Valid) :
    trackOf config (leaveSettled config cs) = (trackOf config cs).left config.fineStep := by
  by_cases hsettled : cs.phase = .settled
  · obtain ⟨proven, hadvance⟩ := advanceCore_unguarded config cs
      (by simp [hsettled]) (by simp [hsettled]) (by simp [hsettled, isBackoff]) false
    rw [leaveSettled, if_pos (.inl hsettled), hadvance]
    cases hbest : cs.bestOffset <;>
      simp [advancePhase, advanceSettled, trackOf, Track.left, Track.known, hsettled, hbest]
  · by_cases hfailed : cs.phase = .failedConfirm
    · obtain ⟨proven, hadvance⟩ := advanceCore_unguarded config cs
        (by simp [hfailed]) (by simp [hfailed]) (by simp [hfailed, isBackoff]) false
      rw [leaveSettled, if_pos (.inr hfailed), hadvance, Track.left, trackOf_phase, hfailed]
      simp only [advancePhase, hfailed]
      exact advanceFailedConfirm_track hvalid
    · rw [leaveSettled, if_neg (by simp [hsettled, hfailed])]
      simp only [Track.left, trackOf_phase]

/-- Where the first slot of a search runs. -/
def firstDepth (config : TunerConfig) (cs : CoreState) : Int :=
  min (config.depth (searchBase config cs) + config.coarseStep) (config.depth config.maxOffset)

theorem prepareSlot_track (hvalid : config.Valid) :
    trackOf config (prepareSlot config cs) =
      if cs.phase = .notStarted then (trackOf config cs).begun (firstDepth config cs)
      else (trackOf config cs).left config.fineStep := by
  rw [prepareSlot, leaveSettled_track hvalid]
  split_ifs with hphase
  · obtain ⟨proven, hadvance⟩ := advanceCore_unguarded config cs
      (by simp [hphase]) (by simp [hphase]) (by simp [hphase, isBackoff]) false
    have hfirst : config.depth (advanceNotStarted config cs).currentOffset =
        firstDepth config cs := depth_advanceNotStarted hvalid.direction
    rw [hadvance]
    simp only [advancePhase, hphase]
    rw [← hfirst]
    rfl
  · rfl

/-- The best offset after a penalty is the old one, or the baseline, no deeper than the
core itself. -/
theorem penalty_best_depth (hdir : Directed.IsDirection config.direction)
    {steps : Option Int} {countCrash : Bool} (htuned : cs.currentOffset ≠ 0) :
    (applyCrashPenalty config cs steps countCrash).core.bestOffset.map config.depth =
      some (min
        ((cs.bestOffset.map config.depth).getD
          (config.depth (retreated config cs steps).baselineOffset))
        (config.depth (retreated config cs steps).currentOffset)) := by
  obtain ⟨hcurrent, hbaseline⟩ := depth_retreated hdir cs steps
  rw [penalty_bestOffset htuned]
  cases cs.bestOffset with
  | none =>
      have hle : config.depth (retreated config cs steps).baselineOffset ≤
          config.depth (retreated config cs steps).currentOffset := by
        rw [hcurrent, hbaseline]
        split_ifs <;> omega
      simp [min_eq_left hle]
  | some best =>
      simp only [isMoreAggressive_iff hdir]
      split_ifs with hdeeper
      · simp [min_eq_right hdeeper.le]
      · simp [min_eq_left (not_lt.mp hdeeper)]

theorem applyCrashPenalty_track (hdir : Directed.IsDirection config.direction)
    (steps : Option Int) (countCrash : Bool) (htuned : cs.currentOffset ≠ 0) :
    trackOf config (applyCrashPenalty config cs steps countCrash).core =
      (trackOf config cs).penalized (config.depth cs.currentOffset)
        (penaltyDepth config cs.currentOffset steps) := by
  have hbeyond : config.depth cs.currentOffset ≠ 0 := mt (depth_eq_zero hdir).mp htuned
  obtain ⟨hcurrent, hbaseline⟩ := depth_retreated hdir cs steps
  have hbounds := trackOf_recordCrash hdir cs
  have hfail := congrArg Track.failBound hbounds
  have hpass := congrArg Track.passBound hbounds
  simp only [Track.penalized, if_neg hbeyond, Track.landing]
  rw [trackOf, penalty_best_depth hdir htuned, penalty_phase htuned,
    penalty_currentOffset htuned, penalty_baselineOffset htuned,
    penalty_backoffFailBound htuned, penalty_backoffPassBound htuned, hcurrent, hbaseline]
  simp only [Track.mk.injEq]
  exact ⟨rfl, rfl, rfl, rfl, hfail, hpass⟩

theorem penalizeResident_track (hdir : Directed.IsDirection config.direction) (resident : Int)
    (steps : Option Int) (countCrash : Bool) :
    trackOf config (penalizeResident config cs resident steps countCrash).core =
      (trackOf config cs).penalized (config.depth resident)
        (penaltyDepth config resident steps) := by
  by_cases hstock : resident = 0
  · rw [penalizeResident, applyCrashPenalty, if_pos hstock, hstock]
    simp [trackOf, Track.penalized]
  · rw [penalizeResident, applyCrashPenalty_track hdir steps countCrash hstock]
    rfl

/-- Where a penalty leaves the core, in depth. -/
def penaltyLanding (config : TunerConfig) (cs : CoreState) (resident : Int)
    (steps : Option Int) : Int :=
  if resident = 0 then 0
  else if config.depth resident ≤ config.depth cs.baselineOffset then
    penaltyDepth config resident steps
  else max (penaltyDepth config resident steps) (config.depth cs.baselineOffset)

theorem penaltyLanding_eq (hdir : Directed.IsDirection config.direction) (cs : CoreState)
    (resident : Int) (steps : Option Int) :
    penaltyLanding config cs resident steps =
      if config.depth resident = 0 then 0
      else (trackOf config cs).landing (config.depth resident)
        (penaltyDepth config resident steps) := by
  simp only [penaltyLanding, depth_eq_zero hdir]
  rfl

/-- A probe starts from a confirmed core and stays within the cap. -/
theorem mayAnneal_room (hdir : Directed.IsDirection config.direction) {hours : ℚ}
    (hmay : mayAnneal config cs hours = true) :
    cs.phase = .confirmed ∧ ∃ best, cs.bestOffset = some best ∧
      config.depth best + config.fineStep ≤ config.depth config.maxOffset := by
  rw [mayAnneal] at hmay
  cases hbest : cs.bestOffset with
  | none => simp [hbest] at hmay
  | some best =>
      simp only [hbest, decide_eq_true_eq] at hmay
      obtain ⟨-, hphase, -, hcap, -⟩ := hmay
      refine ⟨hphase, best, rfl, ?_⟩
      rw [Bool.not_eq_true', ← Bool.not_eq_true, exceedsMax_iff hdir, depth_add hdir] at hcap
      exact not_lt.mp hcap

theorem startAnneal_track (hdir : Directed.IsDirection config.direction) {hours : ℚ}
    (hmay : mayAnneal config cs hours = true) :
    trackOf config (startAnneal config cs).core =
      (trackOf config cs).probing config.fineStep := by
  rw [mayAnneal] at hmay
  cases hbest : cs.bestOffset with
  | none => simp [hbest] at hmay
  | some best =>
      simp [startAnneal, trackOf, Track.probing, Track.known, hbest, depth_add hdir]

theorem backoffCore_track (hdir : Directed.IsDirection config.direction)
    (hsome : backoffCore config cs = some next) :
    trackOf config next = (trackOf config cs).validationStep config.fineStep ∧
      ∃ best, cs.bestOffset = some best ∧ config.depth best ≠ config.depth cs.baselineOffset := by
  rw [backoffCore] at hsome
  cases hbest : cs.bestOffset with
  | none => simp [hbest] at hsome
  | some best =>
      simp only [hbest, Option.ite_none_left_eq_some, Option.some.injEq] at hsome
      obtain ⟨habove, rfl⟩ := hsome
      refine ⟨?_, best, rfl, mt (depth_inj hdir).mp habove⟩
      simp [trackOf, Track.validationStep, Track.stepBack, Track.known, hbest,
        depth_retreatTo hdir, depth_sub hdir]

theorem depth_pullTo (hdir : Directed.IsDirection config.direction) (survived value : Int) :
    config.depth (pullTo config survived value) =
      min (config.depth value) (config.depth survived) := by
  simp only [pullTo, isMoreAggressive_iff hdir]
  split_ifs with hdeeper
  · exact (min_eq_right hdeeper.le).symm
  · exact (min_eq_left (not_lt.mp hdeeper)).symm

theorem reengageCore_track (hdir : Directed.IsDirection config.direction) (survived : Int) :
    trackOf config (reengageCore config cs survived) =
      (trackOf config cs).pulled (config.depth survived) := by
  simp [trackOf, reengageCore, Track.pulled, depth_pullTo hdir, Function.comp_def]

theorem rollbackCoreToEvidence_track (mostAggressivePass : Option Int) :
    trackOf config (rollbackCoreToEvidence cs mostAggressivePass) =
      (trackOf config cs).rolledBack
        (config.depth (mostAggressivePass.getD cs.baselineOffset)) := rfl

theorem revalidateCore_track (offset : Int) :
    trackOf config (revalidateCore cs offset) =
      (trackOf config cs).reopenedAt (config.depth offset) := rfl

theorem keepBooks_track (books : CoreBooks) :
    trackOf config (keepBooks cs books) = trackOf config cs := rfl

/-- A core starts without evidence, at its baseline or at a seed past it. -/
theorem startCore_track (hvalid : config.Valid) (coreId : Nat) (seed readBack : Option Int) :
    ∃ track, trackOf config (startCore config coreId seed readBack) = track ∧
      track.best = none ∧ track.failBound = none ∧ track.passBound = none ∧
      (track.phase = .notStarted ∨
        track.phase = .coarseSearch ∧ track.baseline < track.current ∧
          track.baseline ≤ config.depth config.maxOffset ∧
          track.current ≤ config.depth config.maxOffset) := by
  have hdir := hvalid.direction
  have hroom := hvalid.start_lt_max
  cases hseed : resolveSeed config seed with
  | none => simp [startCore, hseed, trackOf]
  | some offset =>
      have hbounds : config.depth config.startOffset < config.depth offset ∧
          config.depth offset ≤ config.depth config.maxOffset := by
        cases seed with
        | none => simp [resolveSeed] at hseed
        | some wanted =>
            simp only [resolveSeed, isMoreAggressive_iff hdir, exceedsMax_iff hdir,
              Option.ite_none_right_eq_some, Option.some.injEq] at hseed
            obtain ⟨hdeeper, rfl⟩ := hseed
            split_ifs with hcap
            · exact ⟨hroom, le_rfl⟩
            · exact ⟨hdeeper, not_lt.mp hcap⟩
      simp only [startCore, hseed, trackOf]
      exact ⟨_, rfl, rfl, rfl, rfl, .inr ⟨rfl, hbounds.1, hroom.le, hbounds.2⟩⟩

/-- What a step can do, guards included. -/
theorem stepCore_track (hvalid : config.Valid) {event : CoreEvent}
    (hstep : stepCore config cs event = some next) :
    match event with
    | .launch =>
        cs.phase ≠ .confirmed ∧
          trackOf config next =
            if cs.phase = .notStarted then (trackOf config cs).begun (firstDepth config cs)
            else (trackOf config cs).left config.fineStep
    | .verdict true => isStepped cs.phase = true ∧ PassedTo config cs next
    | .verdict false => isStepped cs.phase = true ∧ ∃ paused, FailedTo config cs paused next
    | .penalty resident steps _ =>
        PositiveSteps steps ∧
          trackOf config next =
            (trackOf config cs).penalized (config.depth resident)
              (penaltyDepth config resident steps)
    | .anneal _ =>
        cs.phase = .confirmed ∧
          (∃ best, (trackOf config cs).best = some best ∧
            best + config.fineStep ≤ config.depth config.maxOffset) ∧
          trackOf config next = (trackOf config cs).probing config.fineStep
    | .backOff =>
        cs.phase = .confirmed ∧
          (∃ best, (trackOf config cs).best = some best ∧ best ≠ (trackOf config cs).baseline) ∧
          trackOf config next = (trackOf config cs).validationStep config.fineStep
    | .reengage survived =>
        trackOf config next = (trackOf config cs).pulled (config.depth survived)
    | .rollback mostAggressivePass =>
        cs.phase = .confirmed ∧
          trackOf config next =
            (trackOf config cs).rolledBack
              (config.depth (mostAggressivePass.getD cs.baselineOffset))
    | .revalidate =>
        cs.phase = .confirmed ∧ ∃ best, (trackOf config cs).best = some best ∧
          trackOf config next = (trackOf config cs).reopenedAt best
    | .account _ => trackOf config next = trackOf config cs := by
  have hdir := hvalid.direction
  -- The guard of each event is read off the step, the new track off the lemma of its function.
  cases event with
  | launch =>
      simp only [stepCore, Option.ite_none_left_eq_some, Option.some.injEq] at hstep
      obtain ⟨hphase, rfl⟩ := hstep
      exact ⟨hphase, prepareSlot_track hvalid⟩
  | verdict passed =>
      simp only [stepCore, Option.ite_none_right_eq_some, Option.some.injEq] at hstep
      obtain ⟨hstepped, rfl⟩ := hstep
      cases passed with
      | true => exact ⟨hstepped, advanceCore_passed hvalid hstepped⟩
      | false =>
          obtain ⟨paused, hfailed, -⟩ := advanceCore_failed hvalid hstepped
          exact ⟨hstepped, paused, hfailed⟩
  | penalty resident steps countCrash =>
      simp only [stepCore, Option.ite_none_right_eq_some, Option.some.injEq] at hstep
      obtain ⟨hsteps, rfl⟩ := hstep
      refine ⟨fun count hcount => ?_, penalizeResident_track hdir resident steps countCrash⟩
      rwa [hcount] at hsteps
  | anneal hours =>
      simp only [stepCore, Option.ite_none_right_eq_some, Option.some.injEq] at hstep
      obtain ⟨hmay, rfl⟩ := hstep
      obtain ⟨hphase, best, hbest, hcap⟩ := mayAnneal_room hdir hmay
      exact ⟨hphase, ⟨config.depth best, by simp [trackOf, hbest], hcap⟩,
        startAnneal_track hdir hmay⟩
  | backOff =>
      simp only [stepCore, Option.ite_none_right_eq_some] at hstep
      obtain ⟨htrack, best, hbest, habove⟩ := backoffCore_track hdir hstep.2
      exact ⟨hstep.1, ⟨config.depth best, by simp [trackOf, hbest], habove⟩, htrack⟩
  | reengage survived =>
      obtain rfl := Option.some.inj hstep
      exact reengageCore_track hdir survived
  | rollback mostAggressivePass =>
      simp only [stepCore, Option.ite_none_right_eq_some, Option.some.injEq] at hstep
      obtain ⟨hphase, rfl⟩ := hstep
      exact ⟨hphase, rollbackCoreToEvidence_track mostAggressivePass⟩
  | revalidate =>
      simp only [stepCore, Option.ite_none_right_eq_some, Option.map_eq_some_iff] at hstep
      obtain ⟨hphase, best, hbest, rfl⟩ := hstep
      exact ⟨hphase, config.depth best, by simp [trackOf, hbest], revalidateCore_track best⟩
  | account books =>
      obtain rfl := Option.some.inj hstep
      exact keepBooks_track books

end Tuner
end CoreCycler
