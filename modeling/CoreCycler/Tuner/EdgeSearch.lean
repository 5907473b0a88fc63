import CoreCycler.Tuner.SearchEnds

/-!
# The search converges to the edge

Silicon with a monotone edge passes every offset up to a threshold and fails every offset past
it.  `NearEdge` says, phase by phase, how the search keeps the edge between what it has proven
and what it has seen fail; it is kept by every truthful verdict, and a core that is confirmed
holds an offset within a fine step of the edge.
-/

namespace CoreCycler
namespace Tuner

open Library TunerConfig

variable {config : TunerConfig} {cs : CoreState} {threshold : Int}

/-- A slot passes when its offset is not past the threshold. -/
def survives (config : TunerConfig) (threshold : Int) (cs : CoreState) : Bool :=
  !config.isMoreAggressive cs.currentOffset threshold

/-- The core after a truthful verdict. -/
def truthfulStep (config : TunerConfig) (threshold : Int) (cs : CoreState) : CoreState :=
  (advanceCore config cs (survives config threshold cs)).core

/-- The most aggressive stable offset within the cap. -/
def edgeOffset (config : TunerConfig) (threshold : Int) : Int :=
  if config.exceedsMax threshold then config.maxOffset else threshold

theorem survives_iff (hdir : Directed.IsDirection config.direction) :
    survives config threshold cs = true ↔
      config.depth cs.currentOffset ≤ config.depth threshold := by
  rw [survives, Bool.not_eq_true', ← Bool.not_eq_true, isMoreAggressive_iff hdir, not_lt]

theorem survives_eq_false (hdir : Directed.IsDirection config.direction) :
    survives config threshold cs = false ↔
      config.depth threshold < config.depth cs.currentOffset := by
  rw [← Bool.not_eq_true, survives_iff hdir, not_le]

theorem depth_edgeOffset (hdir : Directed.IsDirection config.direction) (threshold : Int) :
    config.depth (edgeOffset config threshold) =
      min (config.depth threshold) (config.depth config.maxOffset) := by
  simp only [edgeOffset, exceedsMax_iff hdir]
  split_ifs with hcap
  · exact (min_eq_right hcap.le).symm
  · exact (min_eq_left (not_lt.mp hcap)).symm

/-! ## What keeps the edge between the bounds -/

/-- Stable, within the cap. -/
def Proven (config : TunerConfig) (threshold offset : Int) : Prop :=
  config.depth offset ≤ config.depth threshold ∧
    config.depth offset ≤ config.depth config.maxOffset

/-- Stable, within the cap and less than a fine step short of the edge. -/
def AtEdge (config : TunerConfig) (threshold offset : Int) : Prop :=
  Proven config threshold offset ∧
    (config.depth threshold < config.depth offset + config.fineStep ∨
      config.depth config.maxOffset < config.depth offset + config.fineStep)

/-- A back-off whose bounds hold the edge. -/
def BoundsHoldEdge (config : TunerConfig) (threshold : Int) (cs : CoreState) : Prop :=
  (∃ failed, cs.backoffFailBound = some failed ∧ config.depth threshold < config.depth failed ∧
      config.depth failed ≤ config.depth config.maxOffset) ∧
    ∀ passed, cs.backoffPassBound = some passed → Proven config threshold passed

/-- How each phase keeps the edge in reach. -/
def PhaseNearEdge (config : TunerConfig) (threshold : Int) (cs : CoreState) : Prop :=
  match cs.phase with
  | .notStarted => searchBase config cs = config.startOffset ∧ cs.bestOffset = none ∧
      cs.backoffPassBound = none
  | .coarseSearch => cs.backoffPassBound = none ∧
      ∀ best, cs.bestOffset = some best → Proven config threshold best
  | .fineSearch => ∃ best, cs.bestOffset = some best ∧ Proven config threshold best ∧
      config.depth cs.currentOffset ≤ config.depth best + config.fineStep ∧
      ∃ failed, cs.coarseFailOffset = some failed ∧
        config.depth threshold < config.depth failed
  | .settled => ∃ best, cs.bestOffset = some best ∧ AtEdge config threshold best
  | .confirming => ∃ best, cs.bestOffset = some best ∧ cs.currentOffset = best ∧
      AtEdge config threshold best
  | .confirmed => ∃ best, cs.bestOffset = some best ∧ AtEdge config threshold best
  | .backoffPreconfirm => BoundsHoldEdge config threshold cs
  | .backoffConfirming => BoundsHoldEdge config threshold cs ∧
      config.depth cs.currentOffset ≤ config.depth threshold
  | .failedConfirm => False
  | .annealing => False

/-- The search keeps the edge in reach, within the cap and past stable ground. -/
structure NearEdge (config : TunerConfig) (threshold : Int) (cs : CoreState) : Prop where
  ground : config.depth cs.baselineOffset ≤ config.depth threshold
  baseline : config.depth cs.baselineOffset ≤ config.depth config.maxOffset
  cap : config.depth cs.currentOffset ≤ config.depth config.maxOffset
  phase : PhaseNearEdge config threshold cs

/-! ## No truthful verdict pauses -/

theorem advancePhase_paused (config : TunerConfig) (cs : CoreState) (passed : Bool) :
    (advancePhase config cs passed).paused = false := by
  rw [advancePhase]
  cases cs.phase with
  | coarseSearch =>
      simp only [advanceCoarse]
      split_ifs
      · rfl
      · rfl
      · split <;> rfl
  | notStarted | fineSearch | settled | confirming | failedConfirm | backoffPreconfirm
    | backoffConfirming | confirmed | annealing => rfl

theorem recordProven_paused (outcome : Outcome) (passed : Bool) :
    (recordProven outcome passed).paused = outcome.paused := by
  rw [recordProven]
  split_ifs <;> rfl

/-- What a verdict leaves of a core before the phase's own step. -/
theorem absorbVerdict_keeps (config : TunerConfig) (cs : CoreState) (passed : Bool) :
    (absorbVerdict config cs passed).currentOffset = cs.currentOffset ∧
      (absorbVerdict config cs passed).baselineOffset = cs.baselineOffset ∧
      (absorbVerdict config cs passed).phase = cs.phase ∧
      (passed = true →
        (absorbVerdict config cs passed).backoffFailBound = cs.backoffFailBound) := by
  have hnormal : (normalizeBest cs).currentOffset = cs.currentOffset ∧
      (normalizeBest cs).baselineOffset = cs.baselineOffset ∧
      (normalizeBest cs).phase = cs.phase ∧
      (normalizeBest cs).backoffFailBound = cs.backoffFailBound := by
    rw [normalizeBest]
    split_ifs <;> exact ⟨rfl, rfl, rfl, rfl⟩
  obtain ⟨hcurrent, hbaseline, hphase, hfail⟩ := hnormal
  rw [absorbVerdict]
  split_ifs with hrecord
  · refine ⟨hcurrent, hbaseline, hphase, fun hpassed => ?_⟩
    simp [hpassed] at hrecord
  · exact ⟨hcurrent, hbaseline, hphase, fun _ => hfail⟩

/-- A pause is the failure of a core at its baseline, or a pass at or past its fail bound. -/
theorem advanceCore_paused (hdir : Directed.IsDirection config.direction) {passed : Bool}
    (hpaused : (advanceCore config cs passed).paused = true) :
    passed = false ∧ config.depth cs.currentOffset ≤ config.depth cs.baselineOffset ∨
      passed = true ∧ isBackoff cs.phase = true ∧ ∃ failed, cs.backoffFailBound = some failed ∧
        config.depth failed ≤ config.depth cs.currentOffset := by
  obtain ⟨hcurrent, hbaseline, hphase, hfail⟩ := absorbVerdict_keeps config cs passed
  rw [advanceCore] at hpaused
  split_ifs at hpaused with hannealing
  · simp [resolveAnneal] at hpaused
  · dsimp only at hpaused
    by_cases hguard : baselineFailed config (absorbVerdict config cs passed) passed = true
    · left
      simp only [baselineFailed, atOrPastBaseline, atOrPast_iff hdir, hcurrent, hbaseline,
        Bool.and_eq_true, Bool.not_eq_true'] at hguard
      exact ⟨hguard.1.1, hguard.2⟩
    · rw [if_neg hguard] at hpaused
      split at hpaused
      · next outcome hsome =>
          right
          split_ifs at hsome with hback
          rw [hphase, Bool.and_eq_true] at hback
          obtain ⟨failed, hbound, hle, -⟩ := handleContradictoryPass_eq_some hdir hsome
          rw [hfail hback.1] at hbound
          rw [hcurrent] at hle
          exact ⟨hback.1, hback.2, failed, hbound, hle⟩
      · rw [recordProven_paused, advancePhase_paused] at hpaused
        cases hpaused

theorem NearEdge.unpaused (hdir : Directed.IsDirection config.direction)
    (hnear : NearEdge config threshold cs) :
    (advanceCore config cs (survives config threshold cs)).paused = false := by
  by_contra hpaused
  rw [Bool.not_eq_false] at hpaused
  rcases advanceCore_paused hdir hpaused with ⟨hfails, hle⟩ | ⟨hpasses, hbackoff, hpast⟩
  · rw [survives_eq_false hdir] at hfails
    exact absurd (hle.trans hnear.ground) (not_le.mpr hfails)
  · rw [survives_iff hdir] at hpasses
    obtain ⟨failed, hfail, hle⟩ := hpast
    have hbounds : BoundsHoldEdge config threshold cs := by
      have hphase := hnear.phase
      rcases isBackoff_iff.mp hbackoff with hback | hback <;>
        simp only [PhaseNearEdge, hback] at hphase
      · exact hphase
      · exact hphase.1
    obtain ⟨⟨failed', hfail', hlt, -⟩, -⟩ := hbounds
    cases Option.some.inj (hfail.symm.trans hfail')
    omega

/-! ## The steps of the search, with the reason why they stop -/

/-- A coarse PASS settles only where the next fine step would pass the cap. -/
theorem advanceCoarse_pass_edge (hvalid : config.Valid)
    (hcap : config.depth cs.currentOffset ≤ config.depth config.maxOffset) :
    ((advanceCoarse config cs true).core =
        { cs with bestOffset := some cs.currentOffset, phase := .settled } ∧
      config.depth config.maxOffset < config.depth cs.currentOffset + config.fineStep) ∨
    ∃ next, config.depth next ≤ config.depth config.maxOffset ∧
      (advanceCoarse config cs true).core =
        { cs with bestOffset := some cs.currentOffset, currentOffset := next } := by
  have hdir := hvalid.direction
  have hfine := hvalid.fineStep_pos
  have hcoarse := hvalid.fineStep_le
  have hsame : getCoarseStep config { cs with bestOffset := some cs.currentOffset } =
      getCoarseStep config cs := rfl
  by_cases hstop : config.exceedsMax
      (cs.currentOffset + config.direction * getCoarseStep config cs) = true
  · left
    refine ⟨by simp [advanceCoarse, hsame, hstop], ?_⟩
    have hdistance : ((cs.currentOffset - config.maxOffset).natAbs : Int) =
        config.depth config.maxOffset - config.depth cs.currentOffset := by
      have hgap := gapBetween_abs hdir cs.currentOffset config.maxOffset
      rw [gapBetween, abs_of_nonpos (by omega)] at hgap
      omega
    rw [exceedsMax_iff hdir, depth_add hdir, getCoarseStep, hdistance] at hstop
    split_ifs at hstop <;> omega
  · right
    refine ⟨cs.currentOffset + config.direction * getCoarseStep config cs, ?_, ?_⟩
    · rwa [exceedsMax_iff hdir, not_lt] at hstop
    · simp [advanceCoarse, hsame, hstop]

/-- A fine PASS settles only where the next fine step would reach the coarse failure or pass
the cap. -/
theorem advanceFine_pass_edge (hdir : Directed.IsDirection config.direction) :
    (advanceFine config cs true =
        { cs with bestOffset := some cs.currentOffset, phase := .settled } ∧
      ((∃ failed, cs.coarseFailOffset = some failed ∧
          config.depth failed ≤ config.depth cs.currentOffset + config.fineStep) ∨
        config.depth config.maxOffset < config.depth cs.currentOffset + config.fineStep)) ∨
    ∃ next, config.depth next = config.depth cs.currentOffset + config.fineStep ∧
      config.depth next ≤ config.depth config.maxOffset ∧
      advanceFine config cs true =
        { cs with bestOffset := some cs.currentOffset, currentOffset := next } := by
  have hsame : reachesCoarseFail config { cs with bestOffset := some cs.currentOffset }
      (cs.currentOffset + config.direction * config.fineStep) =
      reachesCoarseFail config cs (cs.currentOffset + config.direction * config.fineStep) := rfl
  by_cases hstop : (reachesCoarseFail config cs
      (cs.currentOffset + config.direction * config.fineStep) ||
      config.exceedsMax (cs.currentOffset + config.direction * config.fineStep)) = true
  · left
    refine ⟨by simp only [advanceFine, if_true, hsame, if_pos hstop], ?_⟩
    rwa [Bool.or_eq_true, reachesCoarseFail_iff hdir, exceedsMax_iff hdir, depth_add hdir] at hstop
  · right
    refine ⟨cs.currentOffset + config.direction * config.fineStep, depth_add hdir _ _, ?_, ?_⟩
    · rw [Bool.or_eq_true, not_or, exceedsMax_iff hdir, not_lt] at hstop
      exact hstop.2
    · simp only [advanceFine, if_true, hsame, if_neg hstop]

/-- A confirmed back-off confirms the core only within a fine step of the fail bound. -/
theorem backoffConfirmPass_edge (hvalid : config.Valid) {failed : Int}
    (hfail : cs.backoffFailBound = some failed)
    (hlt : config.depth cs.currentOffset < config.depth failed) :
    (backoffConfirmPass config cs =
        { cs with
          bestOffset := some cs.currentOffset
          backoffPassBound := some cs.currentOffset
          phase := .confirmed } ∧
      config.depth failed ≤ config.depth cs.currentOffset + config.fineStep) ∨
    ∃ mid, config.depth mid < config.depth failed ∧
      backoffConfirmPass config cs =
        { cs with
          bestOffset := some cs.currentOffset
          backoffPassBound := some cs.currentOffset
          currentOffset := mid
          phase := .backoffPreconfirm } := by
  have hdir := hvalid.direction
  have hfine := hvalid.fineStep_pos
  have hgap := gapBetween_eq hdir hlt.le
  by_cases hnear : gapBetween failed cs.currentOffset ≤ config.fineStep
  · exact .inl ⟨by simp only [backoffConfirmPass, hfail, if_pos hnear], by omega⟩
  · right
    refine ⟨cs.currentOffset + config.direction * (gapBetween failed cs.currentOffset / 2), ?_, ?_⟩
    · rw [depth_add hdir]
      omega
    · simp only [backoffConfirmPass, hfail, if_neg hnear]

/-! ## Every truthful verdict keeps the edge in reach -/

/-- Recording what is proven changes nothing the search looks at. -/
theorem NearEdge.withProven (hnear : NearEdge config threshold cs) (proven : Option Int) :
    NearEdge config threshold { cs with provenOffset := proven } :=
  ⟨hnear.ground, hnear.baseline, hnear.cap, hnear.phase⟩

theorem NearEdge.unguarded (hannealing : cs.phase ≠ .annealing)
    (hconfirming : cs.phase ≠ .confirming) (hbackoff : isBackoff cs.phase = false)
    (hnext : NearEdge config threshold
      (advancePhase config cs (survives config threshold cs)).core) :
    NearEdge config threshold (truthfulStep config threshold cs) := by
  obtain ⟨proven, hadvance⟩ := advanceCore_unguarded config cs hannealing hconfirming hbackoff
    (survives config threshold cs)
  rw [truthfulStep, hadvance]
  exact hnext.withProven proven

theorem nearEdge_notStarted (hvalid : config.Valid) (hnear : NearEdge config threshold cs)
    (hphase : cs.phase = .notStarted) :
    NearEdge config threshold (truthfulStep config threshold cs) := by
  obtain ⟨hground, hbaseline, -, hphased⟩ := hnear
  simp only [PhaseNearEdge, hphase] at hphased
  obtain ⟨-, hbest, hpass⟩ := hphased
  refine .unguarded (by simp [hphase]) (by simp [hphase]) (by simp [hphase, isBackoff]) ?_
  have hmoved : (advancePhase config cs (survives config threshold cs)).core =
      advanceNotStarted config cs := by
    simp only [advancePhase, hphase]
  rw [hmoved]
  refine ⟨hground, hbaseline, ?_, hpass, ?_⟩
  · rw [depth_advanceNotStarted hvalid.direction]
    exact min_le_right _ _
  · intro best hsome
    cases hbest.symm.trans hsome

theorem nearEdge_coarse (hvalid : config.Valid) (hnear : NearEdge config threshold cs)
    (hphase : cs.phase = .coarseSearch) :
    NearEdge config threshold (truthfulStep config threshold cs) := by
  have hdir := hvalid.direction
  have hfine := hvalid.fineStep_pos
  obtain ⟨hground, hbaseline, hcap, hphased⟩ := hnear
  simp only [PhaseNearEdge, hphase] at hphased
  obtain ⟨hpass, hproven⟩ := hphased
  refine .unguarded (by simp [hphase]) (by simp [hphase]) (by simp [hphase, isBackoff]) ?_
  have hmoved : (advancePhase config cs (survives config threshold cs)).core =
      (advanceCoarse config cs (survives config threshold cs)).core := by
    simp only [advancePhase, hphase]
  rw [hmoved]
  cases hverdict : survives config threshold cs with
  | true =>
      rw [survives_iff hdir] at hverdict
      rcases advanceCoarse_pass_edge hvalid hcap with ⟨hsettled, hroom⟩ | ⟨next, hnext, hdeeper⟩
      · rw [hsettled]
        exact ⟨hground, hbaseline, hcap, _, rfl, ⟨hverdict, hcap⟩, .inr hroom⟩
      · rw [hdeeper]
        refine ⟨hground, hbaseline, hnext, ?_⟩
        simp only [PhaseNearEdge, hphase]
        refine ⟨hpass, ?_⟩
        rintro best ⟨⟩
        exact ⟨hverdict, hcap⟩
  | false =>
      -- The depth that failed is past the threshold, so it bounds the search from now on.
      rw [survives_eq_false hdir] at hverdict
      cases hbest : cs.bestOffset with
      | none =>
          obtain ⟨next, hnext, hfailed⟩ := advanceCoarse_fail_none hdir hbest
          rw [hfailed]
          refine ⟨hground, hbaseline, ?_, ⟨_, rfl, hverdict, hcap⟩, ?_⟩
          · show config.depth next ≤ _
            omega
          · intro passed hsome
            cases hpass.symm.trans hsome
      | some best =>
          have hknown := hproven best hbest
          obtain ⟨probe, hprobe, ⟨hle, hsettled⟩ | ⟨-, hsearch⟩⟩ :=
            advanceCoarse_fail_some hdir hbest
          · rw [hsettled]
            refine ⟨hground, hbaseline, ?_, best, hbest, hknown, .inl ?_⟩
            · show config.depth probe ≤ _
              omega
            · omega
          · rw [hsearch]
            refine ⟨hground, hbaseline, ?_, best, hbest, hknown, ?_, _, rfl, hverdict⟩
            · show config.depth probe ≤ _
              omega
            · show config.depth probe ≤ _
              omega

theorem nearEdge_fine (hvalid : config.Valid) (hnear : NearEdge config threshold cs)
    (hphase : cs.phase = .fineSearch) :
    NearEdge config threshold (truthfulStep config threshold cs) := by
  have hdir := hvalid.direction
  obtain ⟨hground, hbaseline, hcap, hphased⟩ := hnear
  simp only [PhaseNearEdge, hphase] at hphased
  obtain ⟨best, hbest, hknown, hnext, failed, hfailed, hpast⟩ := hphased
  refine .unguarded (by simp [hphase]) (by simp [hphase]) (by simp [hphase, isBackoff]) ?_
  have hmoved : (advancePhase config cs (survives config threshold cs)).core =
      advanceFine config cs (survives config threshold cs) := by
    simp only [advancePhase, hphase]
  rw [hmoved]
  cases hverdict : survives config threshold cs with
  | true =>
      rw [survives_iff hdir] at hverdict
      rcases advanceFine_pass_edge hdir with ⟨hsettled, hstop⟩ | ⟨next, hstep, hroom, hdeeper⟩
      · rw [hsettled]
        refine ⟨hground, hbaseline, hcap, _, rfl, ⟨hverdict, hcap⟩, hstop.imp_left ?_⟩
        rintro ⟨failed', hfailed', hle⟩
        cases Option.some.inj (hfailed.symm.trans hfailed')
        exact hpast.trans_le hle
      · rw [hdeeper]
        refine ⟨hground, hbaseline, hroom, ?_⟩
        simp only [PhaseNearEdge, hphase]
        exact ⟨_, rfl, ⟨hverdict, hcap⟩, hstep.le, failed, hfailed, hpast⟩
  | false =>
      rw [survives_eq_false hdir] at hverdict
      exact ⟨hground, hbaseline, hcap, best, hbest, hknown, .inl (hverdict.trans_le hnext)⟩

theorem nearEdge_settled (hnear : NearEdge config threshold cs) (hphase : cs.phase = .settled) :
    NearEdge config threshold (truthfulStep config threshold cs) := by
  obtain ⟨hground, hbaseline, -, hphased⟩ := hnear
  simp only [PhaseNearEdge, hphase] at hphased
  obtain ⟨best, hbest, hedge⟩ := hphased
  refine .unguarded (by simp [hphase]) (by simp [hphase]) (by simp [hphase, isBackoff]) ?_
  have hmoved : (advancePhase config cs (survives config threshold cs)).core =
      { cs with phase := .confirming, currentOffset := best } := by
    simp only [advancePhase, hphase, advanceSettled, hbest]
  rw [hmoved]
  exact ⟨hground, hbaseline, hedge.1.2, best, hbest, rfl, hedge⟩

theorem nearEdge_confirming (hdir : Directed.IsDirection config.direction)
    (hnear : NearEdge config threshold cs) (hphase : cs.phase = .confirming) :
    NearEdge config threshold (truthfulStep config threshold cs) := by
  obtain ⟨hground, hbaseline, hcap, hphased⟩ := hnear
  simp only [PhaseNearEdge, hphase] at hphased
  obtain ⟨best, hbest, hcurrent, hedge⟩ := hphased
  have hverdict : survives config threshold cs = true := by
    rw [survives_iff hdir, hcurrent]
    exact hedge.1.1
  obtain ⟨proven, hadvance⟩ := advanceCore_confirming_pass config hphase
  rw [truthfulStep, hverdict, hadvance]
  exact ⟨hground, hbaseline, hcap, best, hbest, hedge⟩

/-- A truthful PASS of a back-off lies short of the fail bound. -/
theorem BoundsHoldEdge.passes (hdir : Directed.IsDirection config.direction)
    (hbounds : BoundsHoldEdge config threshold cs) (hbackoff : isBackoff cs.phase = true)
    (hstable : config.depth cs.currentOffset ≤ config.depth threshold) :
    (∀ bound, cs.backoffFailBound = some bound →
      config.depth cs.currentOffset < config.depth bound) ∧
    ∃ proven, (advanceCore config cs true).core =
      { backoffStepOf config (backoffKnown cs) true with provenOffset := proven } := by
  obtain ⟨⟨failed, hfail, hpast, -⟩, -⟩ := hbounds
  rcases advanceCore_backoff_pass hdir hbackoff with
    ⟨outcome, hcontra, -⟩ | hstep
  · obtain ⟨bound, hbound, hle, -⟩ := handleContradictoryPass_eq_some hdir hcontra
    cases Option.some.inj (hfail.symm.trans hbound)
    exact absurd (hle.trans hstable) (not_le.mpr hpast)
  · exact hstep

theorem nearEdge_preconfirm_passed (hvalid : config.Valid)
    (hnear : NearEdge config threshold cs) (hphase : cs.phase = .backoffPreconfirm)
    (hstable : config.depth cs.currentOffset ≤ config.depth threshold) :
    NearEdge config threshold (advanceCore config cs true).core := by
  have hdir := hvalid.direction
  have hbackoff := isBackoff_iff.mpr (.inl hphase)
  obtain ⟨hground, hbaseline, hcap, hphased⟩ := hnear
  simp only [PhaseNearEdge, hphase] at hphased
  obtain ⟨hshort, proven, hadvance⟩ := hphased.passes hdir hbackoff hstable
  obtain ⟨hfailed, -⟩ := hphased
  have hknown : ∀ passed, some cs.currentOffset = some passed →
      Proven config threshold passed := by
    rintro passed ⟨⟩
    exact ⟨hstable, hcap⟩
  have hstep : backoffStepOf config (backoffKnown cs) true =
      preconfirmPass config (backoffKnown cs) := by
    simp [backoffStepOf, backoffKnown, hphase]
  rw [hadvance, hstep]
  refine NearEdge.withProven ?_ proven
  rcases preconfirmPass_cases hvalid (backoffKnown cs) hshort with
    ⟨attempts, hconfirm⟩ | ⟨mid, bound, hbound, -, hmid, hprobe⟩
  · rw [hconfirm]
    exact ⟨hground, hbaseline, hcap, ⟨hfailed, hknown⟩, hstable⟩
  · obtain ⟨failed, hfail, hpast, hwithin⟩ := hfailed
    cases Option.some.inj (hfail.symm.trans hbound)
    rw [hprobe]
    refine ⟨hground, hbaseline, hmid.le.trans hwithin, ?_⟩
    simp only [PhaseNearEdge, backoffKnown, hphase]
    exact ⟨⟨_, hfail, hpast, hwithin⟩, hknown⟩

/-- The bounds still hold the edge once a truthful failure is recorded. -/
theorem BoundsHoldEdge.recorded (hdir : Directed.IsDirection config.direction)
    (hbounds : BoundsHoldEdge config threshold cs)
    (hcap : config.depth cs.currentOffset ≤ config.depth config.maxOffset)
    (hunstable : config.depth threshold < config.depth cs.currentOffset) :
    BoundsHoldEdge config threshold (recordCrash config (backoffKnown cs)) := by
  obtain ⟨⟨failed, hfail, hpast, -⟩, hknown⟩ := hbounds
  obtain ⟨bound, hbound, hle, -, hfrom⟩ := recordCrash_backoffFailBound hdir (backoffKnown cs)
  refine ⟨⟨bound, hbound, ?_, hle.trans hcap⟩, fun passed hpassed => ?_⟩
  · rcases hfrom with hcurrent | hkept
    · rw [hcurrent]
      exact hunstable
    · cases Option.some.inj (hfail.symm.trans hkept)
      exact hpast
  · exact hknown passed ((recordCrash_backoffPassBound hdir).mp hpassed).1

theorem nearEdge_preconfirm_failed (hvalid : config.Valid)
    (hnear : NearEdge config threshold cs) (hphase : cs.phase = .backoffPreconfirm)
    (hunstable : config.depth threshold < config.depth cs.currentOffset) :
    NearEdge config threshold (advanceCore config cs false).core := by
  have hdir := hvalid.direction
  have hfine := hvalid.fineStep_pos
  have hbackoff := isBackoff_iff.mpr (.inl hphase)
  obtain ⟨hground, hbaseline, hcap, hphased⟩ := hnear
  simp only [PhaseNearEdge, hphase] at hphased
  have hrecorded := hphased.recorded hdir hcap hunstable
  rcases advanceCore_backoff_fail hdir hbackoff with ⟨hle, -⟩ | ⟨-, hadvance⟩
  · omega
  · have hphase' : (recordCrash config (backoffKnown cs)).phase = .backoffPreconfirm := hphase
    have hstep : backoffStepOf config (recordCrash config (backoffKnown cs)) false =
        preconfirmFail config (recordCrash config (backoffKnown cs)) := by
      simp [backoffStepOf, hphase']
    rw [hadvance, hstep]
    cases hpass : (recordCrash config (backoffKnown cs)).backoffPassBound with
    | none =>
        obtain ⟨step, next, fails, hle, hnext, hfailed⟩ := preconfirmFail_none hdir hpass
        have hnext' : config.depth next =
            max (config.depth cs.currentOffset - step) (config.depth cs.baselineOffset) := hnext
        rw [hfailed]
        refine ⟨hground, hbaseline, ?_, ?_⟩
        · show config.depth next ≤ _
          omega
        · simp only [PhaseNearEdge, hphase']
          exact hrecorded
    | some passed =>
        obtain ⟨bound, hfail, hpast, hwithin⟩ := hrecorded.1
        have hproven := hrecorded.2 passed hpass
        rcases preconfirmFail_some hdir hpass hfail with hreturned | ⟨mid, hmid, hprobe⟩
        · rw [hreturned]
          exact ⟨hground, hbaseline, hproven.2, hrecorded, hproven.1⟩
        · rw [hprobe]
          refine ⟨hground, hbaseline, ?_, ?_⟩
          · have hlt : config.depth passed < config.depth bound := hproven.1.trans_lt hpast
            rw [abs_of_pos (sub_pos.mpr hlt)] at hmid
            show config.depth mid ≤ _
            omega
          · simp only [PhaseNearEdge, hphase']
            exact hrecorded

theorem nearEdge_backoffConfirming (hvalid : config.Valid)
    (hnear : NearEdge config threshold cs) (hphase : cs.phase = .backoffConfirming) :
    NearEdge config threshold (truthfulStep config threshold cs) := by
  have hdir := hvalid.direction
  have hbackoff := isBackoff_iff.mpr (.inr hphase)
  obtain ⟨hground, hbaseline, hcap, hphased⟩ := hnear
  simp only [PhaseNearEdge, hphase] at hphased
  obtain ⟨hbounds, hstable⟩ := hphased
  obtain ⟨hshort, proven, hadvance⟩ := hbounds.passes hdir hbackoff hstable
  obtain ⟨⟨failed, hfail, hpast, hwithin⟩, -⟩ := hbounds
  have hknown : ∀ passed, some cs.currentOffset = some passed →
      Proven config threshold passed := by
    rintro passed ⟨⟩
    exact ⟨hstable, hcap⟩
  have hstep : backoffStepOf config (backoffKnown cs) true =
      backoffConfirmPass config (backoffKnown cs) := by
    simp [backoffStepOf, backoffKnown, hphase]
  have hfail' : (backoffKnown cs).backoffFailBound = some failed := hfail
  rw [truthfulStep, (survives_iff hdir).mpr hstable, hadvance, hstep]
  refine NearEdge.withProven ?_ proven
  rcases backoffConfirmPass_edge hvalid hfail' (hshort failed hfail) with
    ⟨hconfirm, hnear⟩ | ⟨mid, hmid, hprobe⟩
  · rw [hconfirm]
    exact ⟨hground, hbaseline, hcap, _, rfl, ⟨hstable, hcap⟩, .inl (hpast.trans_le hnear)⟩
  · rw [hprobe]
    exact ⟨hground, hbaseline, hmid.le.trans hwithin, ⟨failed, hfail, hpast, hwithin⟩, hknown⟩

theorem nearEdge_step (hvalid : config.Valid) (hnear : NearEdge config threshold cs)
    (hunconfirmed : cs.phase ≠ .confirmed) :
    NearEdge config threshold (truthfulStep config threshold cs) := by
  have hdir := hvalid.direction
  cases hphase : cs.phase with
  | notStarted => exact nearEdge_notStarted hvalid hnear hphase
  | coarseSearch => exact nearEdge_coarse hvalid hnear hphase
  | fineSearch => exact nearEdge_fine hvalid hnear hphase
  | settled => exact nearEdge_settled hnear hphase
  | confirming => exact nearEdge_confirming hdir hnear hphase
  | backoffPreconfirm =>
      cases hverdict : survives config threshold cs with
      | true =>
          rw [truthfulStep, hverdict]
          exact nearEdge_preconfirm_passed hvalid hnear hphase ((survives_iff hdir).mp hverdict)
      | false =>
          rw [truthfulStep, hverdict]
          exact nearEdge_preconfirm_failed hvalid hnear hphase
            ((survives_eq_false hdir).mp hverdict)
  | backoffConfirming => exact nearEdge_backoffConfirming hvalid hnear hphase
  | confirmed => exact absurd hphase hunconfirmed
  | failedConfirm | annealing => simpa only [PhaseNearEdge, hphase] using hnear.phase

/-- Every search starts near the edge, at its configured start or at a seed past it. -/
theorem nearEdge_start (hvalid : config.Valid) (coreId : Nat) (seed readBack : Option Int)
    (hbaseline : (startCore config coreId seed readBack).baselineOffset = config.startOffset)
    (hstable : config.isMoreAggressive config.startOffset threshold = false) :
    NearEdge config threshold (startCore config coreId seed readBack) := by
  have hdir := hvalid.direction
  have hroom := hvalid.start_lt_max
  rw [← Bool.not_eq_true, isMoreAggressive_iff hdir, not_lt] at hstable
  obtain ⟨track, htrack, hbest, -, hpass, hphase⟩ := startCore_track hvalid coreId seed readBack
  subst htrack
  have hbest' : (startCore config coreId seed readBack).bestOffset = none :=
    Option.map_eq_none_iff.mp hbest
  have hpass' : (startCore config coreId seed readBack).backoffPassBound = none :=
    Option.map_eq_none_iff.mp hpass
  rcases hphase with hphase | ⟨hphase, -, -, hcap⟩
  · have hcurrent : (startCore config coreId seed readBack).currentOffset = config.startOffset := by
      rw [← hbaseline]
      cases hseed : resolveSeed config seed with
      | none => simp [startCore, hseed]
      | some offset => simp [startCore, hseed, trackOf] at hphase
    refine ⟨hbaseline ▸ hstable, hbaseline ▸ hroom.le, hcurrent ▸ hroom.le, ?_⟩
    simp only [PhaseNearEdge, show (startCore config coreId seed readBack).phase = _ from hphase]
    refine ⟨?_, hbest', hpass'⟩
    rw [searchBase, hcurrent]
    split_ifs <;> rfl
  · refine ⟨hbaseline ▸ hstable, hbaseline ▸ hroom.le, hcap, ?_⟩
    simp only [PhaseNearEdge, show (startCore config coreId seed readBack).phase = _ from hphase]
    exact ⟨hpass', by simp [hbest']⟩

/-- The best offset of a core is stable and within `fine_step - 1` of the edge. -/
def HoldsEdge (config : TunerConfig) (threshold : Int) (cs : CoreState) : Prop :=
  ∃ best, cs.bestOffset = some best ∧ config.isMoreAggressive best threshold = false ∧
    config.exceedsMax best = false ∧
    gapBetween (edgeOffset config threshold) best ≤ config.fineStep - 1 ∧
    (config.fineStep = 1 → best = edgeOffset config threshold)

theorem NearEdge.holdsEdge (hvalid : config.Valid) (hnear : NearEdge config threshold cs)
    (hphase : cs.phase = .confirmed) : HoldsEdge config threshold cs := by
  have hdir := hvalid.direction
  have hphased := hnear.phase
  simp only [PhaseNearEdge, hphase] at hphased
  obtain ⟨best, hbest, ⟨hstable, hcap⟩, hedge⟩ := hphased
  have hle : config.depth best ≤ config.depth (edgeOffset config threshold) := by
    rw [depth_edgeOffset hdir]
    exact le_min hstable hcap
  have hgap : gapBetween (edgeOffset config threshold) best ≤ config.fineStep - 1 := by
    rw [gapBetween_eq hdir hle, depth_edgeOffset hdir]
    omega
  refine ⟨best, hbest, ?_, ?_, hgap, fun hone => ?_⟩
  · rw [← Bool.not_eq_true, isMoreAggressive_iff hdir]
    exact not_lt.mpr hstable
  · rw [← Bool.not_eq_true, exceedsMax_iff hdir]
    exact not_lt.mpr hcap
  · rw [gapBetween_eq hdir hle, hone] at hgap
    rw [← depth_inj hdir]
    omega

/-- **The search converges to the edge.**  On silicon that is stable up to a threshold no less
aggressive than the baseline, the truthful verdicts of a search confirm its core without a
pause, at an offset within `fine_step - 1` of the threshold clamped to `max_offset`. -/
theorem search_converges (hvalid : config.Valid) (coreId : Nat) (seed readBack : Option Int)
    (hbaseline : (startCore config coreId seed readBack).baselineOffset = config.startOffset)
    (hstable : config.isMoreAggressive config.startOffset threshold = false) :
    ∃ count,
      let run := fun verdicts =>
        (truthfulStep config threshold)^[verdicts] (startCore config coreId seed readBack)
      (run count).phase = .confirmed ∧ HoldsEdge config threshold (run count) ∧
        ∀ earlier ≤ count, (advanceCore config (run earlier)
          (survives config threshold (run earlier))).paused = false := by
  have hdir := hvalid.direction
  have hstart : (coreSystem config).Start (startCore config coreId seed readBack) :=
    ⟨coreId, seed, readBack, rfl⟩
  obtain ⟨count, hconfirmed, hrun⟩ := Descent.exists_iterate (fun cs => cs.phase = .confirmed)
    (truthfulStep config threshold) (coreLeft config)
    (fun cs (hinv : (trackOf config cs).Bracketed ∧ NearEdge config threshold cs) hgoing =>
      ⟨bracketed_advanceCore hvalid hinv.1 hgoing, nearEdge_step hvalid hinv.2 hgoing⟩)
    (fun cs hinv hgoing => coreLeft_lower hvalid hinv.1
      (not_or.mpr ⟨hgoing, by simp [hinv.2.unpaused hdir]⟩))
    ⟨bracketed_start hvalid hstart, nearEdge_start hvalid coreId seed readBack hbaseline hstable⟩
  exact ⟨count, hconfirmed, (hrun count le_rfl).2.holdsEdge hvalid hconfirmed,
    fun earlier hle => (hrun earlier hle).2.unpaused hdir⟩

/-- The default search of silicon stable up to -13 confirms it. -/
theorem search_converges_default :
    ∃ count, ((truthfulStep {} (-13))^[count] (startCore {} 0 none none)).phase = .confirmed ∧
      HoldsEdge {} (-13) ((truthfulStep {} (-13))^[count] (startCore {} 0 none none)) := by
  obtain ⟨count, hconfirmed, hedge, -⟩ :=
    search_converges (by decide +kernel : ({} : TunerConfig).Valid) 0 none none rfl
      (by decide : ({} : TunerConfig).isMoreAggressive 0 (-13) = false)
  exact ⟨count, hconfirmed, hedge⟩

end Tuner
end CoreCycler
