import CoreCycler.Tuner.Penalty
import CoreCycler.Tuner.Track

/-!
# The state machine walks its track

Each transition of the code's state machine, seen through `trackOf`, is a move of
the abstract model: verdicts are among `Track.Passed` and `Track.Failed`, and the
other transitions are the functions on tracks.
-/

namespace CoreCycler
namespace Tuner

open Library TunerConfig

variable {config : TunerConfig} {cs : CoreState}

/-- Where a core stands. -/
def trackOf (config : TunerConfig) (cs : CoreState) : Track :=
  { phase := cs.phase
    current := config.depth cs.currentOffset
    baseline := config.depth cs.baselineOffset
    best := cs.bestOffset.map config.depth
    failBound := cs.backoffFailBound.map config.depth
    passBound := cs.backoffPassBound.map config.depth }

@[simp] theorem trackOf_phase : (trackOf config cs).phase = cs.phase := rfl

@[simp] theorem trackOf_current :
    (trackOf config cs).current = config.depth cs.currentOffset := rfl

@[simp] theorem trackOf_baseline :
    (trackOf config cs).baseline = config.depth cs.baselineOffset := rfl

theorem trackOf_known :
    (trackOf config cs).known = config.depth (cs.bestOffset.getD cs.baselineOffset) := by
  simp only [Track.known, trackOf]
  cases cs.bestOffset <;> rfl

theorem trackOf_short :
    (trackOf config cs).Short ↔
      ∀ bound, cs.backoffFailBound = some bound →
        config.depth cs.currentOffset < config.depth bound := by
  simp [Track.Short, trackOf]

theorem trackOf_recordCrash (hdir : Directed.IsDirection config.direction) (cs : CoreState) :
    trackOf config (recordCrash config cs) =
      (trackOf config cs).tightened (config.depth cs.currentOffset) := by
  simp only [trackOf, recordCrash, Track.tightened, Track.failedAt, Track.mk.injEq, true_and]
  constructor
  · cases cs.backoffFailBound with
    | none => simp
    | some bound =>
        simp only [isMoreAggressive_iff hdir, Option.map_some, Option.getD_some]
        split_ifs with hdeeper
        · simp [hdeeper.le]
        · simp [not_lt.mp hdeeper]
  · cases cs.backoffPassBound with
    | none => rfl
    | some bound =>
        simp only [isMoreAggressive_iff hdir, Option.map_some, Option.filter_some,
          decide_eq_true_eq]
        split_ifs <;> rfl

theorem trackOf_backedOff (hdir : Directed.IsDirection config.direction) (cs : CoreState) :
    trackOf config (recordCrash config (backoffKnown cs)) = (trackOf config cs).backedOff := by
  rw [trackOf_recordCrash hdir, Track.backedOff, trackOf_known]
  rfl

/-! ## Passes -/

/-- The verdicts of a valid configuration, on tracks. -/
abbrev PassedTo (config : TunerConfig) (before after : CoreState) : Prop :=
  Track.Passed config.fineStep (config.depth config.maxOffset) (trackOf config before)
    (trackOf config after)

abbrev FailedTo (config : TunerConfig) (before : CoreState) (paused : Bool)
    (after : CoreState) : Prop :=
  Track.Failed config.fineStep (config.depth config.maxOffset) (trackOf config before) paused
    (trackOf config after)

theorem coarse_passed (hvalid : config.Valid) (hphase : cs.phase = .coarseSearch) :
    PassedTo config cs (advanceCoarse config cs true).core := by
  rcases advanceCoarse_pass hvalid cs with hsettled | ⟨next, hlt, hcap, hdeeper⟩
  · rw [hsettled]
    exact .searched (.inl hphase)
  · rw [hdeeper]
    exact .deeper (.inl hphase) hlt hcap

theorem fine_passed (hvalid : config.Valid) (hphase : cs.phase = .fineSearch) :
    PassedTo config cs (advanceFine config cs true) := by
  have hfine := hvalid.fineStep_pos
  rcases advanceFine_pass hvalid.direction cs with
    hsettled | ⟨next, hnext, hcap, -, hdeeper⟩
  · rw [hsettled]
    exact .searched (.inr hphase)
  · rw [hdeeper]
    exact .deeper (.inr hphase) (by simp only [trackOf_current]; omega) hcap

theorem anneal_passed (hdir : Directed.IsDirection config.direction)
    (hphase : cs.phase = .annealing) :
    PassedTo config cs (resolveAnneal config cs true).core := by
  simp only [resolveAnneal, Bool.true_and]
  split_ifs with hclear
  · refine .annealed hphase (trackOf_short.mpr fun bound hbound => ?_)
    simp only [hbound, Bool.not_or, Bool.and_eq_true, Bool.not_eq_true', Bool.eq_false_iff,
      ne_eq, decide_eq_true_eq, isMoreAggressive_iff hdir, not_lt] at hclear
    exact lt_of_le_of_ne hclear.2 (mt (depth_inj hdir).mp hclear.1)
  · have hmoved : Track.Passed config.fineStep (config.depth config.maxOffset)
        (trackOf config cs) _ := .annealRefused hphase
    simpa only [PassedTo, trackOf, Option.getD_map] using hmoved

theorem preconfirm_passed (hvalid : config.Valid) (hphase : cs.phase = .backoffPreconfirm)
    (hshort : ∀ bound, cs.backoffFailBound = some bound →
      config.depth cs.currentOffset < config.depth bound) :
    PassedTo config cs (preconfirmPass config (backoffKnown cs)) := by
  rcases preconfirmPass_cases hvalid (backoffKnown cs) hshort with
    ⟨attempts, hconfirm⟩ | ⟨mid, bound, hbound, hlt, hmid, hprobe⟩
  · rw [hconfirm]
    exact .preconfirmed hphase (trackOf_short.mpr hshort)
  · have hmoved : Track.Passed config.fineStep (config.depth config.maxOffset)
        (trackOf config cs) _ :=
      .bisected (isBackoff_iff.mpr (.inl hphase))
        (by simpa [trackOf] using ⟨bound, hbound, rfl⟩) hlt hmid
    rw [hprobe]
    simpa [PassedTo, trackOf, hphase, backoffKnown] using hmoved

theorem backoffConfirm_passed (hvalid : config.Valid) (hphase : cs.phase = .backoffConfirming)
    (hshort : ∀ bound, cs.backoffFailBound = some bound →
      config.depth cs.currentOffset < config.depth bound) :
    PassedTo config cs (backoffConfirmPass config (backoffKnown cs)) := by
  rcases backoffConfirmPass_cases hvalid (backoffKnown cs) hshort with
    hconfirm | ⟨mid, bound, hbound, hlt, hmid, hprobe⟩
  · rw [hconfirm]
    exact .backoffConfirmed hphase (trackOf_short.mpr hshort)
  · rw [hprobe]
    exact .bisected (isBackoff_iff.mpr (.inr hphase))
      (by simpa [trackOf] using ⟨bound, hbound, rfl⟩) hlt hmid

theorem contradicted_passed (hdir : Directed.IsDirection config.direction)
    (hbackoff : isBackoff cs.phase = true) {outcome : Outcome}
    (hsome : handleContradictoryPass config (backoffKnown cs) = some outcome) :
    PassedTo config cs outcome.core := by
  obtain ⟨bound, hbound, -, ⟨-, hground⟩ | ⟨back, best, hback, habove, hbest, hmoved⟩⟩ :=
    handleContradictoryPass_eq_some hdir hsome
  · rw [hground]
    exact .grounded hbackoff
  · have habove' : (trackOf config cs).baseline < config.depth bound - config.fineStep := by
      rw [← hback]
      exact habove
    have hpassed : Track.Passed config.fineStep (config.depth config.maxOffset)
        (trackOf config cs) _ :=
      .contradicted hbackoff (by simpa [trackOf] using ⟨bound, hbound, rfl⟩) habove'
    obtain ⟨-, hnone⟩ | ⟨old, new, hold, rfl, hnew⟩ := hbest
    · simp [backoffKnown] at hnone
    · simp only [backoffKnown, Option.some.injEq] at hold
      subst hold
      rw [trackOf_known, ← hback, ← hnew] at hpassed
      rw [hmoved]
      exact hpassed

theorem backoff_passed (hvalid : config.Valid) (hbackoff : isBackoff cs.phase = true) :
    PassedTo config cs (advanceCore config cs true).core := by
  have hdir := hvalid.direction
  rcases advanceCore_backoff_pass hdir hbackoff with
    ⟨outcome, hcontra, hadvance⟩ | ⟨hshort, proven, hadvance⟩
  · rw [hadvance]
    exact contradicted_passed hdir hbackoff hcontra
  · rw [hadvance]
    rcases isBackoff_iff.mp hbackoff with hphase | hphase
    · have hstep : backoffStepOf config (backoffKnown cs) true =
          preconfirmPass config (backoffKnown cs) := by
        simp [backoffStepOf, backoffKnown, hphase]
      rw [hstep]
      exact preconfirm_passed hvalid hphase hshort
    · have hstep : backoffStepOf config (backoffKnown cs) true =
          backoffConfirmPass config (backoffKnown cs) := by
        simp [backoffStepOf, backoffKnown, hphase]
      rw [hstep]
      exact backoffConfirm_passed hvalid hphase hshort

/-- Every PASS of a slot is a pass of the track. -/
theorem advanceCore_passed (hvalid : config.Valid) (hstepped : isStepped cs.phase = true) :
    PassedTo config cs (advanceCore config cs true).core := by
  have hdir := hvalid.direction
  cases hphase : cs.phase with
  | coarseSearch =>
      obtain ⟨proven, hadvance⟩ := advanceCore_unguarded config cs
        (by simp [hphase]) (by simp [hphase]) (by simp [hphase, isBackoff]) true
      rw [hadvance, advancePhase, hphase]
      exact coarse_passed hvalid hphase
  | fineSearch =>
      obtain ⟨proven, hadvance⟩ := advanceCore_unguarded config cs
        (by simp [hphase]) (by simp [hphase]) (by simp [hphase, isBackoff]) true
      rw [hadvance, advancePhase, hphase]
      exact fine_passed hvalid hphase
  | confirming =>
      obtain ⟨proven, hadvance⟩ := advanceCore_confirming_pass config hphase
      rw [hadvance]
      exact .confirmed hphase
  | annealing =>
      rw [advanceCore_annealing hphase]
      exact anneal_passed hdir hphase
  | backoffPreconfirm => exact backoff_passed hvalid (isBackoff_iff.mpr (.inl hphase))
  | backoffConfirming => exact backoff_passed hvalid (isBackoff_iff.mpr (.inr hphase))
  | notStarted | settled | confirmed | failedConfirm => simp [hphase, isStepped] at hstepped

/-! ## Failures -/

theorem coarse_failed (hdir : Directed.IsDirection config.direction)
    (hphase : cs.phase = .coarseSearch) :
    FailedTo config cs false (advanceCoarse config cs false).core := by
  cases hbest : cs.bestOffset with
  | none =>
      obtain ⟨next, hnext, hfailed⟩ := advanceCoarse_fail_none hdir hbest
      have hmoved : Track.Failed config.fineStep (config.depth config.maxOffset)
          (trackOf config cs) _ _ := .first hphase (by simp [trackOf, hbest])
      simp only [trackOf_current, trackOf_baseline, ← hnext] at hmoved
      rw [hfailed]
      exact hmoved
  | some best =>
      obtain ⟨probe, hprobe, ⟨-, hsettled⟩ | ⟨hlt, hsearch⟩⟩ :=
        advanceCoarse_fail_some hdir hbest
      · have hmoved : Track.Failed config.fineStep (config.depth config.maxOffset)
            (trackOf config cs) _ _ :=
          .bracketed hphase (by simpa [trackOf] using ⟨best, hbest, rfl⟩)
        rw [← hprobe] at hmoved
        rw [hsettled]
        exact hmoved
      · have hmoved : Track.Failed config.fineStep (config.depth config.maxOffset)
            (trackOf config cs) _ _ :=
          .probed hphase (by simpa [trackOf] using ⟨best, hbest, rfl⟩) (by rwa [← hprobe])
        rw [← hprobe] at hmoved
        rw [hsearch]
        exact hmoved

theorem confirming_failed (hdir : Directed.IsDirection config.direction)
    (hphase : cs.phase = .confirming) :
    ∃ paused, FailedTo config cs paused (advanceCore config cs false).core ∧
      (paused = true → (advanceCore config cs false).paused = true) := by
  rcases advanceCore_confirming_fail hdir hphase with
    ⟨hle, hpause⟩ | ⟨hlt, hretry | hgiveUp⟩
  · rw [hpause]
    exact ⟨true, .confirmPaused hphase hle, fun _ => rfl⟩
  · rw [hretry]
    exact ⟨false, .retried hphase hlt, by simp⟩
  · rw [hgiveUp]
    exact ⟨false, .givenUp hphase hlt, by simp⟩

theorem anneal_failed (hphase : cs.phase = .annealing) :
    FailedTo config cs false (resolveAnneal config cs false).core := by
  have hmoved : Track.Failed config.fineStep (config.depth config.maxOffset)
      (trackOf config cs) _ _ := .annealFailed hphase
  simpa [FailedTo, trackOf, resolveAnneal] using hmoved

/-- The bounds and the known ground of a back-off once its failure is recorded. -/
theorem recordCrash_backoffKnown (hdir : Directed.IsDirection config.direction) {bound : Int}
    (hpass : (recordCrash config (backoffKnown cs)).backoffPassBound = some bound) :
    ((trackOf config cs).tightened (config.depth cs.currentOffset)).passBound =
      some (config.depth bound) := by
  have hbacked := congrArg Track.passBound (trackOf_backedOff hdir cs)
  rw [trackOf, hpass] at hbacked
  exact hbacked.symm

theorem preconfirm_failed (hdir : Directed.IsDirection config.direction)
    (hphase : cs.phase = .backoffPreconfirm)
    (hlt : config.depth cs.baselineOffset < config.depth cs.currentOffset) :
    FailedTo config cs false
      (preconfirmFail config (recordCrash config (backoffKnown cs))) := by
  have hbacked := trackOf_backedOff hdir cs
  cases hpass : (recordCrash config (backoffKnown cs)).backoffPassBound with
  | none =>
      obtain ⟨step, next, fails, hstep, hnext, hfailed⟩ :=
        preconfirmFail_none hdir hpass
      have hmoved : Track.Failed config.fineStep (config.depth config.maxOffset)
          (trackOf config cs) _ _ := .steppedBack hphase hlt hstep
      have hnext' : config.depth next =
          max (config.depth cs.currentOffset - step) (config.depth cs.baselineOffset) := hnext
      rw [← hbacked, trackOf_current, trackOf_baseline, ← hnext'] at hmoved
      rw [hfailed]
      exact hmoved
  | some passBound =>
      obtain ⟨failBound, hfail, -⟩ := recordCrash_backoffFailBound hdir (backoffKnown cs)
      have hpass' := recordCrash_backoffKnown hdir hpass
      rcases preconfirmFail_some hdir hpass hfail with hreturned | ⟨mid, hmid, hprobe⟩
      · have hmoved : Track.Failed config.fineStep (config.depth config.maxOffset)
            (trackOf config cs) _ _ := .returned hphase hlt hpass'
        rw [← hbacked] at hmoved
        rw [hreturned]
        exact hmoved
      · have hfailedAt : (trackOf config cs).failedAt (config.depth cs.currentOffset) =
            config.depth failBound := by
          have hbound := congrArg Track.failBound hbacked
          rw [trackOf, hfail] at hbound
          exact (Option.some.inj hbound).symm
        have hmoved : Track.Failed config.fineStep (config.depth config.maxOffset)
            (trackOf config cs) _ _ := .bisected hphase hlt hpass'
        rw [trackOf_current, hfailedAt, ← hmid, ← hbacked] at hmoved
        rw [hprobe]
        exact hmoved

theorem backoffConfirm_failed (hdir : Directed.IsDirection config.direction)
    (hphase : cs.phase = .backoffConfirming)
    (hlt : config.depth cs.baselineOffset < config.depth cs.currentOffset) :
    FailedTo config cs false
      (backoffConfirmFail config (recordCrash config (backoffKnown cs))) := by
  have hbacked := trackOf_backedOff hdir cs
  have hknown : (recordCrash config (backoffKnown cs)).bestOffset =
      some (cs.bestOffset.getD cs.baselineOffset) := rfl
  rcases backoffConfirmFail_cases hdir hknown with
    ⟨floor, hpass, -, hfloored⟩ | ⟨next, hnext, hreopened⟩
  · have hmoved : Track.Failed config.fineStep (config.depth config.maxOffset)
        (trackOf config cs) _ _ :=
      .floored hphase hlt (recordCrash_backoffKnown hdir hpass)
    rw [← hbacked] at hmoved
    rw [hfloored]
    simpa [FailedTo, trackOf, recordCrash, backoffKnown, hphase] using hmoved
  · have hmoved : Track.Failed config.fineStep (config.depth config.maxOffset)
        (trackOf config cs) _ _ := .reopened hphase hlt
    have hstep : (trackOf config cs).stepBack config.fineStep = config.depth next := by
      rw [Track.stepBack, trackOf_known, hnext]
      rfl
    rw [← hbacked, hstep] at hmoved
    rw [hreopened]
    exact hmoved

theorem backoff_failed (hdir : Directed.IsDirection config.direction)
    (hbackoff : isBackoff cs.phase = true) :
    ∃ paused, FailedTo config cs paused (advanceCore config cs false).core ∧
      (paused = true → (advanceCore config cs false).paused = true) := by
  rcases advanceCore_backoff_fail hdir hbackoff with ⟨hle, hpause⟩ | ⟨hlt, hadvance⟩
  · have hmoved : Track.Failed config.fineStep (config.depth config.maxOffset)
        (trackOf config cs) _ _ := .backoffPaused hbackoff hle
    rw [← trackOf_backedOff hdir cs] at hmoved
    rw [hpause]
    exact ⟨true, hmoved, fun _ => rfl⟩
  · refine ⟨false, ?_, by simp⟩
    rw [hadvance]
    rcases isBackoff_iff.mp hbackoff with hphase | hphase
    · have hstep : backoffStepOf config (recordCrash config (backoffKnown cs)) false =
          preconfirmFail config (recordCrash config (backoffKnown cs)) := by
        simp [backoffStepOf, recordCrash, backoffKnown, hphase]
      rw [hstep]
      exact preconfirm_failed hdir hphase hlt
    · have hstep : backoffStepOf config (recordCrash config (backoffKnown cs)) false =
          backoffConfirmFail config (recordCrash config (backoffKnown cs)) := by
        simp [backoffStepOf, recordCrash, backoffKnown, hphase]
      rw [hstep]
      exact backoffConfirm_failed hdir hphase hlt

/-- Every FAIL of a slot is a failure of the track. -/
theorem advanceCore_failed (hvalid : config.Valid) (hstepped : isStepped cs.phase = true) :
    ∃ paused, FailedTo config cs paused (advanceCore config cs false).core ∧
      (paused = true → (advanceCore config cs false).paused = true) := by
  have hdir := hvalid.direction
  cases hphase : cs.phase with
  | coarseSearch =>
      obtain ⟨proven, hadvance⟩ := advanceCore_unguarded config cs
        (by simp [hphase]) (by simp [hphase]) (by simp [hphase, isBackoff]) false
      refine ⟨false, ?_, by simp⟩
      rw [hadvance, advancePhase, hphase]
      exact coarse_failed hdir hphase
  | fineSearch =>
      obtain ⟨proven, hadvance⟩ := advanceCore_unguarded config cs
        (by simp [hphase]) (by simp [hphase]) (by simp [hphase, isBackoff]) false
      refine ⟨false, ?_, by simp⟩
      rw [hadvance, advancePhase, hphase]
      exact .searched hphase
  | confirming => exact confirming_failed hdir hphase
  | annealing =>
      rw [advanceCore_annealing hphase]
      exact ⟨false, anneal_failed hphase, by simp⟩
  | backoffPreconfirm => exact backoff_failed hdir (isBackoff_iff.mpr (.inl hphase))
  | backoffConfirming => exact backoff_failed hdir (isBackoff_iff.mpr (.inr hphase))
  | notStarted | settled | confirmed | failedConfirm => simp [hphase, isStepped] at hstepped

end Tuner
end CoreCycler
