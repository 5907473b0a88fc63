import CoreCycler.Tuner.CoreRuns

/-!
# The back-off bounds bracket the edge

A back-off keeps the least aggressive offset known to fail and the most aggressive one known
to pass.  The pass bound lies short of the fail bound, every midpoint strictly between the
two, and the fail bound never moves deeper, whatever happens to a core.  The pass bound can be
lowered: a penalty keeps it and lands the core short of it, and a pass there replaces it.
-/

namespace CoreCycler
namespace Tuner

open Library TunerConfig

namespace Track

/-- A search that has not settled has no pass bound, and a pass bound lies short of the fail
bound. -/
structure Bracketed (track : Track) : Prop where
  fresh : track.phase = .notStarted ∨ track.phase = .coarseSearch ∨ track.phase = .fineSearch →
    track.passBound = none
  between : ∀ passed failed, track.passBound = some passed → track.failBound = some failed →
    passed < failed

variable {fine cap : Int} {before after : Track}

/-- A failure keeps the bounds apart. -/
theorem Bracketed.tightened (hbracketed : before.Bracketed) {depth passed : Int}
    (hpass : (before.tightened depth).passBound = some passed) :
    passed < before.failedAt depth := by
  obtain ⟨hold, hlt⟩ := tightened_passBound.mp hpass
  rw [failedAt]
  cases hfail : before.failBound with
  | none => simpa using hlt
  | some failed => exact lt_min (hbracketed.between passed failed hold hfail) hlt

theorem Bracketed.passed (hbracketed : before.Bracketed)
    (hpassed : Passed fine cap before after) : after.Bracketed := by
  obtain ⟨hfresh, hbetween⟩ := hbracketed
  have hcurrent : before.Short → ∀ passed failed, some before.current = some passed →
      before.failBound = some failed → passed < failed := by
    rintro hshort passed failed ⟨⟩ hfail
    exact hshort failed hfail
  cases hpassed with
  | deeper _ _ _ => exact ⟨hfresh, hbetween⟩
  | searched _ => exact ⟨by simp, hbetween⟩
  | confirmed _ => exact ⟨by simp, hbetween⟩
  | annealed _ _ => exact ⟨by simp, hbetween⟩
  | annealRefused _ => exact ⟨by simp, hbetween⟩
  | grounded _ => exact ⟨by simp, hbetween⟩
  | contradicted _ _ _ => exact ⟨by simp, hbetween⟩
  | preconfirmed _ hshort => exact ⟨by simp, hcurrent hshort⟩
  | backoffConfirmed _ hshort => exact ⟨by simp, hcurrent hshort⟩
  | bisected _ hbound hlt hmid =>
      refine ⟨by simp, hcurrent fun failed hfail => ?_⟩
      cases Option.some.inj (hbound.symm.trans hfail)
      exact hlt.trans hmid

theorem Bracketed.backedOff (hbracketed : before.Bracketed)
    (hphase : isBackoff before.phase = true) : before.backedOff.Bracketed := by
  refine ⟨fun hfresh => ?_, fun passed failed hpass hfail => ?_⟩
  · rcases hfresh with hfresh | hfresh | hfresh <;>
      simp [show before.phase = _ from hfresh, isBackoff] at hphase
  · rw [← Option.some.inj hfail]
    exact hbracketed.tightened hpass

theorem Bracketed.failed (hbracketed : before.Bracketed) {paused : Bool}
    (hfailed : Failed fine cap before paused after) : after.Bracketed := by
  have hbacked : isBackoff before.phase = true → before.backedOff.Bracketed := hbracketed.backedOff
  obtain ⟨hfresh, hbetween⟩ := hbracketed
  cases hfailed with
  | first hphase _ =>
      refine ⟨by simp, fun passed failed hpass _ => ?_⟩
      cases (hfresh (.inr (.inl hphase))).symm.trans hpass
  | probed hphase _ _ => exact ⟨fun _ => hfresh (.inr (.inl hphase)), hbetween⟩
  | bracketed _ _ => exact ⟨by simp, hbetween⟩
  | searched _ => exact ⟨by simp, hbetween⟩
  | confirmPaused _ _ => exact ⟨hfresh, hbetween⟩
  | retried _ _ => exact ⟨hfresh, hbetween⟩
  | givenUp _ _ => exact ⟨by simp, hbetween⟩
  | annealFailed _ => exact ⟨by simp, hbetween⟩
  | backoffPaused hphase _ => exact hbacked hphase
  | returned hphase _ _ =>
      exact ⟨by simp, (hbacked (by simp [hphase, isBackoff])).between⟩
  | bisected hphase _ _ =>
      have hkept := hbacked (by simp [hphase, isBackoff])
      exact ⟨hkept.fresh, hkept.between⟩
  | steppedBack hphase _ _ =>
      have hkept := hbacked (by simp [hphase, isBackoff])
      exact ⟨hkept.fresh, hkept.between⟩
  | floored hphase _ _ =>
      have hkept := hbacked (by simp [hphase, isBackoff])
      exact ⟨hkept.fresh, hkept.between⟩
  | reopened hphase _ =>
      exact ⟨by simp, (hbacked (by simp [hphase, isBackoff])).between⟩

theorem Bracketed.left (hbracketed : before.Bracketed) : (before.left fine).Bracketed := by
  unfold Track.left
  split
  · exact ⟨by simp, hbracketed.between⟩
  · exact ⟨by simp, hbracketed.between⟩
  · exact hbracketed

theorem Bracketed.penalized (hbracketed : before.Bracketed) (resident back : Int) :
    (before.penalized resident back).Bracketed := by
  unfold Track.penalized
  split
  · exact ⟨hbracketed.fresh, hbracketed.between⟩
  · refine ⟨fun hfresh => ?_, fun passed failed hpass hfail => ?_⟩
    · have hold : before.phase = .notStarted ∨ before.phase = .coarseSearch ∨
          before.phase = .fineSearch := by
        revert hfresh
        dsimp only
        cases before.phase <;> simp [forcedIntoBackoff]
      show before.passBound.filter _ = none
      rw [hbracketed.fresh hold]
      rfl
    · rw [← Option.some.inj hfail]
      exact hbracketed.tightened hpass

/-- A core without a best offset has no fail bound. -/
def Unproven (track : Track) : Prop := track.best = none → track.failBound = none

theorem Unproven.of_best {track : Track} {best : Int} (hbest : track.best = some best) :
    track.Unproven := by
  simp [Unproven, hbest]

theorem Unproven.passed (hunproven : before.Unproven) (hpassed : Passed fine cap before after) :
    after.Unproven := by
  cases hpassed with
  | deeper _ _ _ => exact .of_best rfl
  | searched _ => exact .of_best rfl
  | confirmed _ => exact hunproven
  | annealed _ _ => exact .of_best rfl
  | annealRefused _ => exact hunproven
  | grounded _ => exact .of_best rfl
  | contradicted _ _ _ => exact .of_best rfl
  | preconfirmed _ _ => exact .of_best rfl
  | backoffConfirmed _ _ => exact .of_best rfl
  | bisected _ _ _ _ => exact .of_best rfl

theorem Unproven.failed (hunproven : before.Unproven) {paused : Bool}
    (hfailed : Failed fine cap before paused after) : after.Unproven := by
  cases hfailed with
  | first _ _ => exact .of_best rfl
  | probed _ _ _ => exact hunproven
  | bracketed _ _ => exact hunproven
  | searched _ => exact hunproven
  | confirmPaused _ _ => exact hunproven
  | retried _ _ => exact hunproven
  | givenUp _ _ => exact hunproven
  | annealFailed _ => exact hunproven
  | backoffPaused _ _ => exact .of_best rfl
  | returned _ _ _ => exact .of_best rfl
  | bisected _ _ _ => exact .of_best rfl
  | steppedBack _ _ _ => exact .of_best rfl
  | floored _ _ _ => exact .of_best rfl
  | reopened _ _ => exact .of_best rfl

theorem Unproven.left (hunproven : before.Unproven) : (before.left fine).Unproven := by
  unfold Track.left
  split
  · exact .of_best rfl
  · exact .of_best rfl
  · exact hunproven

theorem Unproven.penalized (hunproven : before.Unproven) (resident back : Int) :
    (before.penalized resident back).Unproven := by
  unfold Track.penalized
  split
  · exact hunproven
  · exact .of_best rfl

end Track

variable {config : TunerConfig} {cs next : CoreState}

theorem bracketed_start (hvalid : config.Valid) (hstart : (coreSystem config).Start cs) :
    (trackOf config cs).Bracketed := by
  obtain ⟨coreId, seed, readBack, rfl⟩ := hstart
  obtain ⟨track, htrack, -, -, hpass, -⟩ := startCore_track hvalid coreId seed readBack
  rw [htrack]
  exact ⟨fun _ => hpass, by simp [hpass]⟩

theorem bracketed_step (hvalid : config.Valid) {event : CoreEvent}
    (hbracketed : (trackOf config cs).Bracketed)
    (hstep : stepCore config cs event = some next) : (trackOf config next).Bracketed := by
  have hmove := stepCore_track hvalid hstep
  cases event with
  | launch =>
      rw [hmove.2]
      split_ifs with hphase
      · exact ⟨fun _ => hbracketed.fresh (.inl hphase), hbracketed.between⟩
      · exact hbracketed.left
  | verdict passed =>
      cases passed with
      | true => exact hbracketed.passed hmove.2
      | false =>
          obtain ⟨-, paused, hfailed⟩ := hmove
          exact hbracketed.failed hfailed
  | penalty resident steps countCrash =>
      rw [hmove.2]
      exact hbracketed.penalized _ _
  | anneal hours =>
      obtain ⟨-, -, htrack⟩ := hmove
      rw [htrack]
      exact ⟨by simp [Track.probing], hbracketed.between⟩
  | backOff =>
      rw [hmove.2.2]
      exact ⟨hbracketed.fresh, hbracketed.between⟩
  | reengage survived =>
      rw [show trackOf config next = _ from hmove]
      exact ⟨hbracketed.fresh, hbracketed.between⟩
  | rollback mostAggressivePass =>
      rw [hmove.2]
      exact ⟨by simp [Track.rolledBack], by simp [Track.rolledBack]⟩
  | revalidate =>
      obtain ⟨-, best, -, htrack⟩ := hmove
      rw [htrack]
      exact ⟨by simp [Track.reopenedAt], hbracketed.between⟩
  | account books =>
      rw [show trackOf config next = _ from hmove]
      exact hbracketed

theorem unproven_start (hvalid : config.Valid) (hstart : (coreSystem config).Start cs) :
    (trackOf config cs).Unproven := by
  obtain ⟨coreId, seed, readBack, rfl⟩ := hstart
  obtain ⟨track, htrack, -, hfail, -⟩ := startCore_track hvalid coreId seed readBack
  rw [htrack]
  exact fun _ => hfail

theorem unproven_step (hvalid : config.Valid) {event : CoreEvent}
    (hunproven : (trackOf config cs).Unproven)
    (hstep : stepCore config cs event = some next) : (trackOf config next).Unproven := by
  have hmove := stepCore_track hvalid hstep
  cases event with
  | launch =>
      rw [hmove.2]
      split_ifs with hphase
      · exact hunproven
      · exact hunproven.left
  | verdict passed =>
      cases passed with
      | true => exact hunproven.passed hmove.2
      | false =>
          obtain ⟨-, paused, hfailed⟩ := hmove
          exact hunproven.failed hfailed
  | penalty resident steps countCrash =>
      rw [hmove.2]
      exact hunproven.penalized _ _
  | anneal hours =>
      obtain ⟨-, -, htrack⟩ := hmove
      rw [htrack]
      exact hunproven
  | backOff =>
      rw [hmove.2.2]
      exact .of_best rfl
  | reengage survived =>
      rw [show trackOf config next = _ from hmove]
      exact fun hbest => hunproven (Option.map_eq_none_iff.mp hbest)
  | rollback mostAggressivePass =>
      rw [hmove.2]
      exact .of_best rfl
  | revalidate =>
      obtain ⟨-, best, -, htrack⟩ := hmove
      rw [htrack]
      exact .of_best rfl
  | account books =>
      rw [show trackOf config next = _ from hmove]
      exact hunproven

/-! ## Midpoints -/

/-- The verdict sends a back-off half way between its bounds. -/
def ProbesMidpoint (config : TunerConfig) (cs : CoreState) : Bool → Prop
  | true =>
      isBackoff cs.phase = true ∧
        handleContradictoryPass config (normalizeBest cs) = none ∧
        (cs.phase = .backoffConfirming ∨ cs.backoffPassBound ≠ none) ∧
        ∃ failed, cs.backoffFailBound = some failed ∧
          config.fineStep < gapBetween failed cs.currentOffset
  | false =>
      cs.phase = .backoffPreconfirm ∧
        atOrPastBaseline config cs.currentOffset cs = false ∧
        ∃ passed failed, (recordBackoffFail config cs).backoffPassBound = some passed ∧
          (recordBackoffFail config cs).backoffFailBound = some failed ∧
          config.fineStep < gapBetween failed passed

/-- The offset under test is the midpoint of the bounds and lies strictly between them. -/
def AtMidpoint (config : TunerConfig) (cs : CoreState) : Prop :=
  cs.phase = .backoffPreconfirm ∧
    ∃ passed failed, cs.backoffPassBound = some passed ∧ cs.backoffFailBound = some failed ∧
      cs.currentOffset = passed + config.direction * (gapBetween failed passed / 2) ∧
      config.isMoreAggressive cs.currentOffset passed = true ∧
      config.isMoreAggressive failed cs.currentOffset = true

/-- A gap of more than a fine step has room for its midpoint. -/
theorem midpoint_between (hvalid : config.Valid) {passed failed : Int}
    (hlt : config.depth passed < config.depth failed)
    (hgap : config.fineStep < gapBetween failed passed) :
    config.isMoreAggressive (passed + config.direction * (gapBetween failed passed / 2))
        passed = true ∧
      config.isMoreAggressive failed
        (passed + config.direction * (gapBetween failed passed / 2)) = true := by
  have hdir := hvalid.direction
  have hfine := hvalid.fineStep_pos
  rw [isMoreAggressive_iff hdir, isMoreAggressive_iff hdir, depth_add hdir]
  rw [gapBetween_eq hdir hlt.le] at hgap ⊢
  omega

theorem passes_midpoint (hvalid : config.Valid) (hprobes : ProbesMidpoint config cs true) :
    AtMidpoint config (advanceCore config cs true).core := by
  have hdir := hvalid.direction
  obtain ⟨hbackoff, hagrees, hfrom, failed, hfail, hgap⟩ := hprobes
  rw [normalizeBest_backoff hbackoff] at hagrees
  rcases advanceCore_backoff_pass hdir hbackoff with
    ⟨outcome, hcontra, -⟩ | ⟨hshort, proven, hadvance⟩
  · cases hagrees.symm.trans hcontra
  · have hmid := midpoint_between hvalid (hshort failed hfail) hgap
    rw [hadvance]
    rcases isBackoff_iff.mp hbackoff with hphase | hphase
    · obtain ⟨passBound, hpass⟩ : ∃ passBound, cs.backoffPassBound = some passBound := by
        simpa [hphase, Option.ne_none_iff_exists'] using hfrom
      have hstep : backoffStepOf config (backoffKnown cs) true =
          { backoffKnown cs with
            bestOffset := some cs.currentOffset
            backoffPassBound := some cs.currentOffset
            currentOffset :=
              cs.currentOffset + config.direction * (gapBetween failed cs.currentOffset / 2) } := by
        simp [backoffStepOf, preconfirmPass, backoffKnown, hphase, hpass, hfail, not_le.mpr hgap]
      rw [hstep]
      exact ⟨hphase, cs.currentOffset, failed, rfl, hfail, rfl, hmid⟩
    · have hstep : backoffStepOf config (backoffKnown cs) true =
          { backoffKnown cs with
            bestOffset := some cs.currentOffset
            backoffPassBound := some cs.currentOffset
            currentOffset :=
              cs.currentOffset + config.direction * (gapBetween failed cs.currentOffset / 2)
            phase := .backoffPreconfirm } := by
        simp [backoffStepOf, backoffConfirmPass, backoffKnown, hphase, hfail, not_le.mpr hgap]
      rw [hstep]
      exact ⟨rfl, cs.currentOffset, failed, rfl, hfail, rfl, hmid⟩

theorem fails_midpoint (hvalid : config.Valid) (hbracketed : (trackOf config cs).Bracketed)
    (hprobes : ProbesMidpoint config cs false) :
    AtMidpoint config (advanceCore config cs false).core := by
  have hdir := hvalid.direction
  obtain ⟨hphase, habove, passed, failed, hpass, hfail, hgap⟩ := hprobes
  rw [recordBackoffFail_eq hdir] at hpass hfail
  have hbackoff : isBackoff cs.phase = true := isBackoff_iff.mpr (.inl hphase)
  have hlt : config.depth passed < config.depth failed := by
    have hkept := hbracketed.backedOff hbackoff
    rw [← trackOf_backedOff hdir] at hkept
    refine hkept.between _ _ ?_ ?_
    · rw [trackOf, show (recordCrash config (backoffKnown cs)).backoffPassBound = _ from hpass]
      rfl
    · rw [trackOf, show (recordCrash config (backoffKnown cs)).backoffFailBound = _ from hfail]
      rfl
  have hmid := midpoint_between hvalid hlt hgap
  rw [atOrPastBaseline, ← Bool.not_eq_true, atOrPast_iff hdir] at habove
  rcases advanceCore_backoff_fail hdir hbackoff with ⟨hle, -⟩ | ⟨-, hadvance⟩
  · exact absurd hle habove
  · have hstep : backoffStepOf config (recordCrash config (backoffKnown cs)) false =
        { recordCrash config (backoffKnown cs) with
          consecutiveBackoffFails := cs.consecutiveBackoffFails + 1
          bestOffset := some passed
          currentOffset := passed + config.direction * (gapBetween failed passed / 2) } := by
      have hpass' : (recordCrash config (backoffKnown cs)).backoffPassBound = some passed := hpass
      have hfail' : (recordCrash config (backoffKnown cs)).backoffFailBound = some failed := hfail
      have hphase' : (recordCrash config (backoffKnown cs)).phase = .backoffPreconfirm := hphase
      simp only [backoffStepOf, preconfirmFail, hphase', hpass', hfail', Option.getD_some,
        if_neg (not_le.mpr hgap), if_true, Bool.false_eq_true, if_false]
      rfl
    rw [hadvance, hstep]
    exact ⟨hphase, passed, failed, hpass, hfail, rfl, hmid⟩

/-! ## Which way the bounds move -/

/-- The fail bound is kept, or replaced by one no more aggressive. -/
def FailBoundKept (config : TunerConfig) (before after : CoreState) : Prop :=
  ∀ bound, before.backoffFailBound = some bound → ∃ kept, after.backoffFailBound = some kept ∧
    config.isMoreAggressive kept bound = false

/-- The pass bound is kept, or replaced by one no less aggressive. -/
def PassBoundKept (config : TunerConfig) (before after : CoreState) : Prop :=
  ∀ bound, before.backoffPassBound = some bound → ∃ kept, after.backoffPassBound = some kept ∧
    config.isMoreAggressive bound kept = false

/-- A back-off runs short of the pass bound on record. -/
def ShortOfPassBound (config : TunerConfig) (cs : CoreState) : Prop :=
  isBackoff cs.phase = true ∧ ∃ bound, cs.backoffPassBound = some bound ∧
    config.isMoreAggressive bound cs.currentOffset = true

theorem failBoundKept_iff (hdir : Directed.IsDirection config.direction)
    {before after : CoreState} :
    FailBoundKept config before after ↔
      ∀ bound, (trackOf config before).failBound = some bound →
        ∃ kept, (trackOf config after).failBound = some kept ∧ kept ≤ bound := by
  simp [FailBoundKept, trackOf, ← Bool.not_eq_true, isMoreAggressive_iff hdir]

/-- A failure of a back-off, a crash and a machine check tighten the fail bound. -/
theorem tightened_failBound (track : Track) (depth : Int) {bound : Int}
    (hbound : track.failBound = some bound) : track.failedAt depth ≤ bound := by
  simp [Track.failedAt, hbound]

theorem penalty_failBoundKept (hdir : Directed.IsDirection config.direction) (resident : Int)
    (steps : Option Int) (countCrash : Bool) :
    FailBoundKept config cs (penalizeResident config cs resident steps countCrash).core := by
  rw [failBoundKept_iff hdir, penalizeResident_track hdir]
  intro bound hbound
  by_cases hstock : config.depth resident = 0
  · exact ⟨bound, by rwa [Track.penalized, if_pos hstock], le_rfl⟩
  · exact ⟨_, by rw [Track.penalized, if_neg hstock]; rfl, tightened_failBound _ _ hbound⟩

/-- The fail bound after a FAIL: the one on record, the tightened one of a back-off, or the
offset of the first coarse failure. -/
theorem Track.Failed.failBound {fine cap : Int} {before after : Track} {paused : Bool}
    (hfailed : Track.Failed fine cap before paused after) :
    after.failBound = before.failBound ∨
      after.failBound = some (before.failedAt before.current) ∨
      after.failBound = some before.current ∧ before.best = none := by
  cases hfailed with
  | first _ hbest => exact .inr (.inr ⟨rfl, hbest⟩)
  | probed _ _ _ => exact .inl rfl
  | bracketed _ _ => exact .inl rfl
  | searched _ => exact .inl rfl
  | confirmPaused _ _ => exact .inl rfl
  | retried _ _ => exact .inl rfl
  | givenUp _ _ => exact .inl rfl
  | annealFailed _ => exact .inl rfl
  | backoffPaused _ _ => exact .inr (.inl rfl)
  | returned _ _ _ => exact .inr (.inl rfl)
  | bisected _ _ _ => exact .inr (.inl rfl)
  | steppedBack _ _ _ => exact .inr (.inl rfl)
  | floored _ _ _ => exact .inr (.inl rfl)
  | reopened _ _ => exact .inr (.inl rfl)

theorem fail_failBoundKept (hvalid : config.Valid) (hunproven : (trackOf config cs).Unproven)
    (hstepped : isStepped cs.phase = true) :
    FailBoundKept config cs (advanceCore config cs false).core := by
  obtain ⟨paused, hfailed, -⟩ := advanceCore_failed hvalid hstepped
  rw [failBoundKept_iff hvalid.direction]
  intro bound hbound
  rcases Track.Failed.failBound hfailed with hkept | hkept | ⟨-, hbest⟩
  · exact ⟨bound, hkept.trans hbound, le_rfl⟩
  · exact ⟨_, hkept, tightened_failBound _ _ hbound⟩
  · cases (hunproven hbest).symm.trans hbound

/-- What a back-off that passes short of the fail bound takes for its pass bound. -/
theorem backoffStepOf_passBound (config : TunerConfig) (cs : CoreState) :
    (backoffStepOf config cs true).backoffPassBound = some cs.currentOffset := by
  simp only [backoffStepOf, preconfirmPass, backoffConfirmPass]
  split_ifs
  · split
    · split_ifs <;> rfl
    · rfl
  · split
    · split_ifs <;> rfl
    · rfl

theorem passBoundKept_iff (hdir : Directed.IsDirection config.direction)
    {before after : CoreState} :
    PassBoundKept config before after ↔
      ∀ bound, (trackOf config before).passBound = some bound →
        ∃ kept, (trackOf config after).passBound = some kept ∧ bound ≤ kept := by
  simp [PassBoundKept, trackOf, ← Bool.not_eq_true, isMoreAggressive_iff hdir]

/-- Only back-offs move the pass bound. -/
theorem Track.Passed.passBound {fine cap : Int} {before after : Track}
    (hpassed : Track.Passed fine cap before after) (hphase : isBackoff before.phase = false) :
    after.passBound = before.passBound := by
  cases hpassed with
  | deeper _ _ _ => rfl
  | searched _ => rfl
  | confirmed _ => rfl
  | annealed _ _ => rfl
  | annealRefused _ => rfl
  | grounded _ => rfl
  | contradicted _ _ _ => rfl
  | preconfirmed hback _ => simp [hback, isBackoff] at hphase
  | backoffConfirmed hback _ => simp [hback, isBackoff] at hphase
  | bisected hback _ _ _ => cases hphase.symm.trans hback

/-- A PASS keeps the pass bound unless it is of a back-off short of the bound. -/
theorem pass_passBoundKept_iff (hvalid : config.Valid)
    (hbracketed : (trackOf config cs).Bracketed) (hstepped : isStepped cs.phase = true) :
    PassBoundKept config cs (advanceCore config cs true).core ↔ ¬ ShortOfPassBound config cs := by
  have hdir := hvalid.direction
  by_cases hbackoff : isBackoff cs.phase = true
  · rcases advanceCore_backoff_pass hdir hbackoff with
      ⟨outcome, hcontra, hadvance⟩ | ⟨-, proven, hadvance⟩
    · -- The pass bound lies short of the fail bound, which the core has reached.
      obtain ⟨failed, hfail, hreached, hmoved⟩ := handleContradictoryPass_eq_some hdir hcontra
      have hkept : outcome.core.backoffPassBound = cs.backoffPassBound := by
        obtain ⟨-, hcore⟩ | ⟨back, best, -, -, -, hcore⟩ := hmoved
        · rw [hcore]
          rfl
        · rw [hcore]
          rfl
      rw [hadvance]
      refine iff_of_true (fun bound hbound => ⟨bound, hkept.trans hbound, ?_⟩) ?_
      · rw [← Bool.not_eq_true, isMoreAggressive_iff hdir]
        exact lt_irrefl _
      · rintro ⟨-, bound, hbound, hdeeper⟩
        rw [isMoreAggressive_iff hdir] at hdeeper
        have hlt := hbracketed.between (config.depth bound) (config.depth failed)
          (by simp [trackOf, hbound]) (by simp [trackOf, show cs.backoffFailBound = _ from hfail])
        have hreached' : config.depth failed ≤ config.depth cs.currentOffset := hreached
        omega
    -- A pass of the back-off overwrites the bound with its own depth, deeper or not.
    · have hbound' := backoffStepOf_passBound config (backoffKnown cs)
      rw [hadvance]
      constructor
      · rintro hkeeps ⟨-, bound, hbound, hdeeper⟩
        obtain ⟨kept, hnew, hnot⟩ := hkeeps bound hbound
        cases Option.some.inj (hbound'.symm.trans hnew)
        rw [show config.isMoreAggressive bound (backoffKnown cs).currentOffset = _ from hdeeper]
          at hnot
        cases hnot
      · intro hclear bound hbound
        refine ⟨cs.currentOffset, hbound', ?_⟩
        rw [← Bool.not_eq_true]
        exact fun hdeeper => hclear ⟨hbackoff, bound, hbound, hdeeper⟩
  · have hkept := Track.Passed.passBound (advanceCore_passed hvalid hstepped)
      (Bool.not_eq_true _ ▸ hbackoff)
    rw [passBoundKept_iff hdir]
    exact iff_of_true (fun bound hbound => ⟨bound, hkept.trans hbound, le_rfl⟩)
      fun hshort => hbackoff hshort.1

/-- The bounds of a core bracket the edge of its stability: they are in order, midpoints lie
strictly between them, no failure moves the fail bound deeper, and a PASS takes the pass bound
back exactly when it is of a back-off short of the bound on record. -/
structure BoundsBracket (config : TunerConfig) (cs : CoreState) : Prop where
  ordered : ∀ passed failed, cs.backoffPassBound = some passed →
    cs.backoffFailBound = some failed → config.isMoreAggressive failed passed = true
  midpoint : ∀ passed, ProbesMidpoint config cs passed →
    AtMidpoint config (advanceCore config cs passed).core
  penalty : ∀ resident steps countCrash,
    FailBoundKept config cs (penalizeResident config cs resident steps countCrash).core
  fail : isStepped cs.phase = true → FailBoundKept config cs (advanceCore config cs false).core
  pass : isStepped cs.phase = true →
    (PassBoundKept config cs (advanceCore config cs true).core ↔ ¬ ShortOfPassBound config cs)

/-- **The back-off bounds bracket the edge**, in every session and whatever happens to its
cores. -/
theorem backoff_bounds_bracket (Core : Type*) [DecidableEq Core] (hvalid : config.Valid)
    {cores : Core → CoreState} (hreach : (sessionSystem Core config).Reachable cores)
    (core : Core) : BoundsBracket config (cores core) := by
  have hdir := hvalid.direction
  have hrun : (sessionSystem Core config).ReachableBy
      (StepSystem.eachStep StepSystem.anyStep) cores := hreach
  have hbracketed : (trackOf config (cores core)).Bracketed :=
    (hrun.component core).invariant (fun _ hstart => bracketed_start hvalid hstart)
      (fun _ _ _ hinv _ hstep => bracketed_step hvalid hinv hstep)
  have hunproven : (trackOf config (cores core)).Unproven :=
    (hrun.component core).invariant (fun _ hstart => unproven_start hvalid hstart)
      (fun _ _ _ hinv _ hstep => unproven_step hvalid hinv hstep)
  refine ⟨fun passed failed hpass hfail => ?_, fun passed hprobes => ?_,
    penalty_failBoundKept hdir, fail_failBoundKept hvalid hunproven,
    pass_passBoundKept_iff hvalid hbracketed⟩
  · rw [isMoreAggressive_iff hdir]
    exact hbracketed.between _ _ (by simp [trackOf, hpass]) (by simp [trackOf, hfail])
  · cases passed with
    | true => exact passes_midpoint hvalid hprobes
    | false => exact fails_midpoint hvalid hbracketed hprobes

/-- With -2 confirmed and -4 failed, a crash at the midpoint lands the core on 0, and a PASS
there takes the pass bound from -2 back to 0. -/
theorem pass_bound_taken_back :
    ({} : TunerConfig).Valid ∧
      ∃ cs, (coreSystem {}).Reachable cs ∧ isStepped cs.phase = true ∧
        cs.backoffPassBound = some (-2) ∧
        (advanceCore {} cs true).core.backoffPassBound = some 0 ∧
        ¬ PassBoundKept {} cs (advanceCore {} cs true).core := by
  have hstart : (coreSystem {}).Start (startCore {} 0 none none) := ⟨0, none, none, rfl⟩
  obtain ⟨cs, hreach, hview⟩ := StepSystem.exists_reachable
    (fun cs => (isStepped cs.phase, cs.backoffPassBound,
      (advanceCore {} cs true).core.backoffPassBound))
    (true, some (-2), some 0)
    [.launch, .verdict true, .verdict false, .verdict true, .verdict true, .verdict false,
      .launch, .verdict false, .verdict false, .launch, .verdict false, .verdict false,
      .verdict false, .verdict true, .verdict true, .penalty (-3) none true]
    hstart (by decide +kernel)
  simp only [Prod.mk.injEq] at hview
  obtain ⟨hstepped, hpass, hafter⟩ := hview
  refine ⟨by decide +kernel, cs, hreach, hstepped, hpass, hafter, fun hkept => ?_⟩
  obtain ⟨kept, hnew, hnot⟩ := hkept _ hpass
  cases Option.some.inj (hafter.symm.trans hnew)
  revert hnot
  decide

/-- The same run up to the crash. -/
def bracketingEvents : List (Unit × CoreEvent) :=
  [.launch, .verdict true, .verdict false, .verdict true, .verdict true, .verdict false,
    .launch, .verdict false, .verdict false, .launch, .verdict false, .verdict false,
    .verdict false, .verdict true, .verdict true].map ((), ·)

/-- With -2 confirmed and -4 failed, the bounds bracket the edge. -/
theorem backoff_bounds_bracket_default :
    ∃ cores : Unit → CoreState, (sessionSystem Unit {}).Reachable cores ∧
      (cores ()).backoffPassBound = some (-2) ∧ (cores ()).backoffFailBound = some (-4) ∧
      BoundsBracket {} (cores ()) := by
  have hstart : (sessionSystem Unit {}).Start fun _ => startCore {} 0 none none :=
    fun _ => ⟨0, none, none, rfl⟩
  obtain ⟨cores, hreach, hview⟩ := StepSystem.exists_reachable
    (fun cores => ((cores ()).backoffPassBound, (cores ()).backoffFailBound))
    (some (-2), some (-4)) bracketingEvents hstart (by decide +kernel)
  obtain ⟨hpass, hfail⟩ := Prod.mk.inj hview
  exact ⟨cores, hreach, hpass, hfail, backoff_bounds_bracket Unit (by decide +kernel) hreach ()⟩

end Tuner
end CoreCycler
