import CoreCycler.Tuner.CoreRuns

/-!
# Failures outrank passes

The fail bound is the least aggressive offset known to fail.  Only back-offs and
annealing probes look at it, so confirmed ground lies short of it only while no step
brings a bound into a search that will not consult it.  `Track.Respects` is the
invariant of such runs, `KeepsFailures` says which penalties keep it, and a PASS never
touches the bound at all.
-/

namespace CoreCycler
namespace Tuner

open Library TunerConfig

namespace Track

/-- The phases whose offset is taken for proven or about to be. -/
def isTrusted (phase : TunerPhase) : Bool :=
  phase = .settled ∨ phase = .confirming ∨ phase = .confirmed ∨ phase = .annealing

/-- Every bound on record is respected: a fresh search has none, trusted ground lies short
of the fail bound, a back-off stays at or past its baseline, and the pass bound lies
between the baseline and the fail bound. -/
structure Respects (track : Track) : Prop where
  fresh : track.phase = .notStarted ∨ track.phase = .coarseSearch ∨ track.phase = .fineSearch →
    track.failBound = none ∧ track.passBound = none
  trusted : isTrusted track.phase = true → ∀ bound, track.failBound = some bound →
    track.known < bound ∧ track.baseline < bound
  backoff : isBackoff track.phase = true → track.baseline ≤ track.current
  passBound : track.PassBetween

variable {fine cap : Int} {before after : Track}

theorem Respects.passed (hrespects : before.Respects) (hpassed : Passed fine cap before after) :
    after.Respects := by
  obtain ⟨hfresh, htrusted, hbackoff, hpass⟩ := hrespects
  cases hpassed with
  | deeper hphase hlt hcap =>
      obtain ⟨hfail, hnone⟩ := hfresh (.inr hphase)
      rcases hphase with hphase | hphase <;>
        exact ⟨fun _ => ⟨hfail, hnone⟩, by simp [hphase, isTrusted], by simp [hphase, isBackoff],
          .of_none hnone⟩
  | searched hphase =>
      obtain ⟨hfail, hnone⟩ := hfresh (.inr hphase)
      exact ⟨by simp, by simp [hfail], by simp [isBackoff], .of_none hnone⟩
  | confirmed hphase =>
      exact ⟨by simp, fun _ => htrusted (by simp [hphase, isTrusted]), by simp [isBackoff], hpass⟩
  | annealed hphase hshort =>
      refine ⟨by simp, fun _ bound hbound => ⟨hshort bound hbound, ?_⟩, by simp [isBackoff], hpass⟩
      exact (htrusted (by simp [hphase, isTrusted]) bound hbound).2
  | annealRefused hphase =>
      exact ⟨by simp, fun _ => htrusted (by simp [hphase, isTrusted]), by simp [isBackoff], hpass⟩
  | grounded hphase => exact ⟨by simp, by simp [isTrusted], by simp, hpass⟩
  | contradicted hphase hbound habove =>
      exact ⟨by simp, by simp [isTrusted], fun _ => habove.le, hpass⟩
  | preconfirmed hphase hshort =>
      have hground := hbackoff (by simp [hphase, isBackoff])
      refine ⟨by simp, by simp [isTrusted], fun _ => hground, ?_⟩
      rintro passed ⟨⟩
      exact ⟨hground, hshort⟩
  | backoffConfirmed hphase hshort =>
      have hground := hbackoff (by simp [hphase, isBackoff])
      refine ⟨by simp, fun _ bound hbound => ?_, by simp [isBackoff], ?_⟩
      · exact ⟨hshort bound hbound, hground.trans_lt (hshort bound hbound)⟩
      · rintro passed ⟨⟩
        exact ⟨hground, hshort⟩
  | bisected hphase hbound hlt hmid =>
      have hground := hbackoff hphase
      refine ⟨by simp, by simp [isTrusted], fun _ => hground.trans hlt.le, ?_⟩
      rintro passed ⟨⟩
      refine ⟨hground, fun bound hbound' => ?_⟩
      obtain rfl := Option.some.inj (hbound.symm.trans hbound')
      exact hlt.trans hmid

/-- A back-off that fails keeps its bounds in order wherever it goes next. -/
theorem Respects.backedOff (hrespects : before.Respects) {phase : TunerPhase}
    (hphase : isBackoff phase = true) {current : Int} {best : Option Int}
    (hground : before.baseline ≤ current) :
    Respects { before.backedOff with phase := phase, best := best, current := current } := by
  refine ⟨?_, ?_, fun _ => hground, ?_⟩
  · rcases isBackoff_iff.mp hphase with rfl | rfl <;> simp
  · rcases isBackoff_iff.mp hphase with rfl | rfl <;> simp [isTrusted]
  · intro passed hpass
    obtain ⟨hbase, hshort, -⟩ := hrespects.passBound.tightened before.current hpass
    refine ⟨hbase, ?_⟩
    rintro bound ⟨⟩
    exact hshort

theorem Respects.failed (hrespects : before.Respects) {paused : Bool}
    (hfailed : Failed fine cap before paused after) : after.Respects := by
  obtain ⟨hfresh, htrusted, hbackoff, hpass⟩ := id hrespects
  cases hfailed with
  | first hphase hbest =>
      obtain ⟨-, hnone⟩ := hfresh (.inr (.inl hphase))
      exact ⟨by simp, by simp [isTrusted], fun _ => le_max_right _ _, .of_none hnone⟩
  | probed hphase hbest hlt =>
      obtain ⟨hfail, hnone⟩ := hfresh (.inr (.inl hphase))
      exact ⟨fun _ => ⟨hfail, hnone⟩, by simp [isTrusted], by simp [isBackoff], .of_none hnone⟩
  | bracketed hphase hbest =>
      obtain ⟨hfail, hnone⟩ := hfresh (.inr (.inl hphase))
      exact ⟨by simp, by simp [hfail], by simp [isBackoff], .of_none hnone⟩
  | searched hphase =>
      obtain ⟨hfail, hnone⟩ := hfresh (.inr (.inr hphase))
      exact ⟨by simp, by simp [hfail], by simp [isBackoff], .of_none hnone⟩
  | confirmPaused hphase hle => exact hrespects
  | retried hphase hlt => exact hrespects
  | givenUp hphase hlt => exact ⟨by simp, by simp [isTrusted], by simp [isBackoff], hpass⟩
  | annealFailed hphase =>
      exact ⟨by simp, fun _ => htrusted (by simp [hphase, isTrusted]), by simp [isBackoff], hpass⟩
  | backoffPaused hphase hle => exact hrespects.backedOff hphase (hbackoff hphase)
  | returned hphase hlt hbound =>
      exact hrespects.backedOff (by simp [isBackoff]) (hrespects.passBound.tightened _ hbound).1
  | @bisected bound hphase hlt hbound =>
      have hground := (hrespects.passBound.tightened _ hbound).1
      refine hrespects.backedOff (isBackoff_iff.mpr (.inl hphase)) (hground.trans ?_)
      have hgap := abs_nonneg (before.failedAt before.current - bound)
      omega
  | steppedBack hphase hlt hstep =>
      exact hrespects.backedOff (isBackoff_iff.mpr (.inl hphase)) (le_max_right _ _)
  | floored hphase hlt hbound =>
      exact hrespects.backedOff (isBackoff_iff.mpr (.inr hphase)) (hrespects.passBound.tightened _ hbound).1
  | reopened hphase hlt => exact hrespects.backedOff (by simp [isBackoff]) (le_max_right _ _)

/-- The steps out of a phase that tests nothing. -/
theorem Respects.left (hrespects : before.Respects) : (before.left fine).Respects := by
  obtain ⟨hfresh, htrusted, hbackoff, hpass⟩ := id hrespects
  rw [Track.left]
  split
  · next hphase =>
      have hground := htrusted (by simp [hphase, isTrusted])
      exact ⟨by simp, fun _ => hground, by simp [isBackoff], hpass⟩
  · next hphase =>
      exact ⟨by simp, by simp [isTrusted], fun _ => le_max_right _ _, hpass⟩
  · exact hrespects

/-- A fresh search starts without bounds. -/
theorem Respects.begun (hrespects : before.Respects) (hphase : before.phase = .notStarted)
    (first : Int) : (before.begun first).Respects := by
  obtain ⟨hfail, hnone⟩ := hrespects.fresh (.inl hphase)
  exact ⟨fun _ => ⟨hfail, hnone⟩, by simp [Track.begun, isTrusted],
    by simp [Track.begun, isBackoff], .of_none hnone⟩

/-- The penalties that keep the bounds: none off stock before the search has begun, on
ground that stays trusted only past stock or past that ground, and at stock only on
back-offs whose baseline is no deeper. -/
def Penalizable (track : Track) (resident : Int) : Prop :=
  if resident = 0 then isBackoff track.phase = true → track.baseline ≤ 0
  else track.phase ≠ .notStarted ∧
    (track.phase = .settled ∨ track.phase = .annealing →
      0 < resident ∨ track.baseline < resident ∧ track.known < resident)

/-- A penalty on trusted ground ends short of the tightened fail bound. -/
theorem Respects.penalized_short (hrespects : before.Respects)
    (hphase : isTrusted before.phase = true) {resident back : Int}
    (hroom : back < resident ∨ before.baseline < resident ∧ before.known < resident) :
    (if resident ≤ before.baseline then back else before.baseline) <
        before.failedAt resident ∧
      min (before.best.getD (if resident ≤ before.baseline then back else before.baseline))
        (before.landing resident back) < before.failedAt resident := by
  have htrusted := hrespects.trusted hphase
  rw [known] at hroom htrusted
  rw [failedAt, landing]
  cases hfail : before.failBound with
  | none =>
      simp only [Option.getD_none]
      cases hbest : before.best with
      | none =>
          simp only [hbest, Option.getD_none] at hroom ⊢
          split_ifs <;> omega
      | some best =>
          simp only [hbest, Option.getD_some] at hroom ⊢
          split_ifs <;> omega
  | some bound =>
      obtain ⟨hknown, hground⟩ := htrusted bound hfail
      simp only [Option.getD_some]
      cases hbest : before.best with
      | none =>
          simp only [hbest, Option.getD_none] at hroom hknown ⊢
          split_ifs <;> omega
      | some best =>
          simp only [hbest, Option.getD_some] at hroom hknown ⊢
          split_ifs <;> omega

theorem Respects.penalized (hrespects : before.Respects) {resident back : Int}
    (hallowed : before.Penalizable resident) (hretreat : 0 < resident → back < resident) :
    (before.penalized resident back).Respects := by
  obtain ⟨hfresh, htrusted, hbackoff, hpass⟩ := id hrespects
  by_cases hstock : resident = 0
  · simp only [Penalizable, if_pos hstock] at hallowed
    simp only [Track.penalized, if_pos hstock]
    exact ⟨hfresh, htrusted, hallowed, hpass⟩
  · simp only [Penalizable, if_neg hstock] at hallowed
    simp only [Track.penalized, if_neg hstock]
    refine ⟨?_, ?_, fun _ => ?_, ?_⟩
    · intro hphase
      cases hbefore : before.phase <;>
        simp_all [forcedIntoBackoff]
    · intro hphase bound hbound
      obtain rfl := Option.some.inj hbound
      -- Every other trusted phase is forced into back-off.
      have hkept : before.phase = .settled ∨ before.phase = .annealing := by
        cases hbefore : before.phase <;> simp_all [forcedIntoBackoff, isTrusted]
      have hshort := hrespects.penalized_short
        (by rcases hkept with h | h <;> simp [h, isTrusted])
        ((hallowed.2 hkept).imp_left hretreat)
      exact ⟨hshort.2, hshort.1⟩
    · simp only [landing]
      split_ifs
      · exact le_refl _
      · exact le_max_right _ _
    · intro passed hpassed
      obtain ⟨hground, hshort, hlt⟩ := hrespects.passBound.tightened resident hpassed
      refine ⟨?_, ?_⟩
      · split_ifs <;> omega
      · rintro bound ⟨⟩
        exact hshort

theorem Respects.probing (hrespects : before.Respects) (hphase : before.phase = .confirmed) :
    (before.probing fine).Respects :=
  ⟨by simp [Track.probing], fun _ => hrespects.trusted (by simp [hphase, isTrusted]),
    by simp [Track.probing, isBackoff], hrespects.passBound⟩

theorem Respects.validationStep (hrespects : before.Respects) (hfine : 0 ≤ fine)
    (hphase : before.phase = .confirmed) : (before.validationStep fine).Respects := by
  refine ⟨by simp [Track.validationStep, hphase], fun _ bound hbound => ?_,
    by simp [Track.validationStep, hphase, isBackoff], hrespects.passBound⟩
  obtain ⟨hknown, hground⟩ := hrespects.trusted (by simp [hphase, isTrusted]) bound hbound
  refine ⟨?_, hground⟩
  simp only [Track.validationStep, Track.stepBack, Track.known, Option.getD_some] at hknown ⊢
  omega

theorem Respects.pulled (hrespects : before.Respects) (survived : Int) :
    (before.pulled survived).Respects := by
  obtain ⟨hfresh, htrusted, hbackoff, hpass⟩ := hrespects
  refine ⟨hfresh, fun hphase bound hbound => ?_, fun hphase => ?_, fun passed hpassed => ?_⟩
  · obtain ⟨hknown, hground⟩ := htrusted hphase bound hbound
    simp only [Track.pulled, Track.known] at hknown ⊢
    cases hbest : before.best with
    | none =>
        simp only [Option.map_none, Option.getD_none]
        omega
    | some best =>
        simp only [hbest, Option.map_some, Option.getD_some] at hknown ⊢
        omega
  · have hground := hbackoff hphase
    simp only [Track.pulled]
    omega
  · obtain ⟨hground, hshort⟩ := hpass passed hpassed
    exact ⟨(min_le_left _ _).trans hground, hshort⟩

theorem Respects.rolledBack (depth : Int) : (before.rolledBack depth).Respects :=
  ⟨by simp [Track.rolledBack], by simp [Track.rolledBack], by simp [Track.rolledBack, isBackoff],
    .of_none rfl⟩

theorem Respects.reopenedAt (hrespects : before.Respects) (hphase : before.phase = .confirmed)
    {best : Int} (hbest : before.best = some best) : (before.reopenedAt best).Respects := by
  refine ⟨by simp [Track.reopenedAt], fun _ bound hbound => ?_,
    by simp [Track.reopenedAt, isBackoff], hrespects.passBound⟩
  simpa [Track.known, Track.reopenedAt, hbest] using
    hrespects.trusted (by simp [hphase, isTrusted]) bound hbound

end Track

variable {config : TunerConfig} {cs next : CoreState}

/-- A core confirmed at or past an offset on record as failing. -/
def Refuted (config : TunerConfig) (cs : CoreState) : Prop :=
  cs.phase = .confirmed ∧ ∃ best bound, cs.bestOffset = some best ∧
    cs.backoffFailBound = some bound ∧ config.depth bound ≤ config.depth best

/-- The steps that bring no fail bound where it will not be consulted. -/
def KeepsFailures (config : TunerConfig) (cs : CoreState) : CoreEvent → Prop
  | .penalty resident _ _ =>
      if resident = 0 then
        isBackoff cs.phase = true → config.depth cs.baselineOffset ≤ 0
      else
        cs.phase ≠ .notStarted ∧
          (cs.phase = .settled ∨ cs.phase = .annealing →
            0 < config.depth resident ∨
              config.depth cs.baselineOffset < config.depth resident ∧
                config.depth (cs.bestOffset.getD cs.baselineOffset) < config.depth resident)
  | _ => True

instance (config : TunerConfig) (cs : CoreState) :
    (event : CoreEvent) → Decidable (KeepsFailures config cs event)
  | .penalty _ _ _ => by
      unfold KeepsFailures
      infer_instance
  | .launch | .verdict _ | .anneal _ | .backOff | .reengage _ | .rollback _ | .revalidate
  | .account _ => .isTrue trivial

theorem respects_step (hvalid : config.Valid) {event : CoreEvent}
    (hrespects : (trackOf config cs).Respects) (hkeeps : KeepsFailures config cs event)
    (hstep : stepCore config cs event = some next) : (trackOf config next).Respects := by
  have hdir := hvalid.direction
  have hfine := hvalid.fineStep_pos
  have hmove := stepCore_track hvalid hstep
  cases event with
  | launch =>
      obtain ⟨-, htrack⟩ := hmove
      rw [htrack]
      split_ifs with hphase
      · exact hrespects.begun hphase _
      · exact hrespects.left
  | verdict passed =>
      cases passed with
      | true => exact hrespects.passed hmove.2
      | false =>
          obtain ⟨-, paused, hfailed⟩ := hmove
          exact hrespects.failed hfailed
  | penalty resident steps countCrash =>
      obtain ⟨hsteps, htrack⟩ := hmove
      rw [htrack]
      refine hrespects.penalized ?_ (penaltyDepth_lt hvalid hsteps)
      simp only [Track.Penalizable, depth_eq_zero hdir, trackOf_known]
      exact hkeeps
  | anneal hours =>
      obtain ⟨hphase, -, htrack⟩ := hmove
      rw [htrack]
      exact hrespects.probing hphase
  | backOff =>
      obtain ⟨hphase, -, htrack⟩ := hmove
      rw [htrack]
      exact hrespects.validationStep (by omega) hphase
  | reengage survived =>
      have htrack : trackOf config next = (trackOf config cs).pulled (config.depth survived) :=
        hmove
      rw [htrack]
      exact hrespects.pulled _
  | rollback mostAggressivePass =>
      obtain ⟨-, htrack⟩ := hmove
      rw [htrack]
      exact .rolledBack _
  | revalidate =>
      obtain ⟨hphase, best, hbest, htrack⟩ := hmove
      rw [htrack]
      exact hrespects.reopenedAt hphase hbest
  | account books =>
      have htrack : trackOf config next = trackOf config cs := hmove
      rwa [htrack]

theorem respects_start (hvalid : config.Valid) (hstart : (coreSystem config).Start cs) :
    (trackOf config cs).Respects := by
  obtain ⟨coreId, seed, readBack, rfl⟩ := hstart
  obtain ⟨track, htrack, -, hfail, hpass, hphase⟩ := startCore_track hvalid coreId seed readBack
  rw [htrack]
  rcases hphase with hphase | ⟨hphase, -⟩ <;>
    exact ⟨fun _ => ⟨hfail, hpass⟩, by simp [hphase, Track.isTrusted],
      by simp [hphase, isBackoff], .of_none hpass⟩

theorem not_refuted_of_respects (hrespects : (trackOf config cs).Respects) :
    ¬ Refuted config cs := by
  rintro ⟨hphase, best, bound, hbest, hbound, hdeep⟩
  have hshort := (hrespects.trusted (by simp [hphase, Track.isTrusted]) (config.depth bound)
    (by simp [trackOf, hbound])).1
  rw [trackOf_known, hbest, Option.getD_some] at hshort
  omega

theorem Track.Passed.failBound_eq {fine cap : Int} {before after : Track}
    (hpassed : Track.Passed fine cap before after) : after.failBound = before.failBound := by
  cases hpassed <;> rfl

/-- A PASS leaves the fail bound alone. -/
theorem pass_keeps_failBound (hvalid : config.Valid) (cs : CoreState) :
    (advanceCore config cs true).core.backoffFailBound = cs.backoffFailBound := by
  by_cases hstepped : isStepped cs.phase = true
  · have hsame := (advanceCore_passed hvalid hstepped).failBound_eq
    exact Option.map_injective (fun _ _ => (depth_inj hvalid.direction).mp) hsame
  · simp only [isStepped, decide_eq_true_eq, not_or] at hstepped
    obtain ⟨hcoarse, hfine, hconfirming, hpreconfirm, hconfirm, hannealing⟩ := hstepped
    obtain ⟨proven, hadvance⟩ := advanceCore_unguarded config cs hannealing hconfirming
      (by simp [isBackoff, hpreconfirm, hconfirm]) true
    rw [hadvance]
    cases hphase : cs.phase with
    | notStarted => simp [advancePhase, hphase, advanceNotStarted]
    | settled =>
        simp only [advancePhase, hphase, advanceSettled]
        split <;> rfl
    | failedConfirm =>
        simp only [advancePhase, hphase, advanceFailedConfirm]
        split <;> [split_ifs; skip] <;> rfl
    | confirmed => simp [advancePhase, hphase]
    | coarseSearch => exact absurd hphase hcoarse
    | fineSearch => exact absurd hphase hfine
    | confirming => exact absurd hphase hconfirming
    | backoffPreconfirm => exact absurd hphase hpreconfirm
    | backoffConfirming => exact absurd hphase hconfirm
    | annealing => exact absurd hphase hannealing

/-- **Failures outrank passes.**  A PASS never changes the fail bound, in any state; and in
sessions whose steps keep failures where they are consulted no core is ever confirmed at
or past its fail bound. -/
theorem failures_outrank_passes (Core : Type*) [DecidableEq Core] (hvalid : config.Valid) :
    (∀ cs : CoreState,
      (advanceCore config cs true).core.backoffFailBound = cs.backoffFailBound) ∧
    ∀ cores : Core → CoreState,
      (sessionSystem Core config).ReachableBy
        (StepSystem.eachStep (KeepsFailures config)) cores →
      ∀ core, ¬ Refuted config (cores core) := by
  refine ⟨pass_keeps_failBound hvalid, fun cores hreach core => not_refuted_of_respects ?_⟩
  exact (hreach.component core).invariant (fun _ hstart => respects_start hvalid hstart)
    (fun _ _ _ hrespects hkeeps hstep => respects_step hvalid hrespects hkeeps hstep)

/-- A search from -10 to -16. -/
def shortSearch : TunerConfig := { startOffset := -10, maxOffset := -16 }

/-- A machine check at the resident -10 before the core's search has begun, then a search
that passes everywhere. -/
def forgottenBoundEvents : List CoreEvent :=
  [ .penalty (-10) (some 1) false, .launch, .verdict true, .verdict true, .launch,
    .verdict true ]

/-- The core ends confirmed at -16 with -10 on record as failing. -/
theorem forgotten_bound_refuted :
    shortSearch.Valid ∧ ∃ cs, (coreSystem shortSearch).Reachable cs ∧ Refuted shortSearch cs := by
  refine ⟨by decide +kernel, ?_⟩
  have hstart : (coreSystem shortSearch).Start (startCore shortSearch 0 none none) :=
    ⟨0, none, none, rfl⟩
  obtain ⟨cs, hreach, hview⟩ := StepSystem.exists_reachable
    (fun cs => (cs.phase, cs.bestOffset, cs.backoffFailBound))
    (.confirmed, some (-16), some (-10)) forgottenBoundEvents hstart (by decide +kernel)
  simp only [Prod.mk.injEq] at hview
  obtain ⟨hphase, hbest, hbound⟩ := hview
  exact ⟨cs, hreach, hphase, -16, -10, hbest, hbound, by decide⟩

/-- A core of the default search is confirmed at -5, charged with a crash there, and confirmed
again short of it. -/
def reconfirmedEvents : List (Unit × CoreEvent) :=
  [.launch, .verdict true, .verdict false, .verdict false, .launch, .verdict true,
    .penalty (-5) (some 1) true, .verdict true, .verdict true].map ((), ·)

/-- With -5 on record as failing, the core is confirmed at -4, and not refuted. -/
theorem failures_outrank_passes_confirmed :
    ∃ cores : Unit → CoreState,
      (sessionSystem Unit {}).ReachableBy (StepSystem.eachStep (KeepsFailures {})) cores ∧
        (cores ()).phase = .confirmed ∧ (cores ()).bestOffset = some (-4) ∧
        (cores ()).backoffFailBound = some (-5) ∧ ¬ Refuted {} (cores ()) := by
  have hstart : (sessionSystem Unit {}).Start fun _ => startCore {} 0 none none :=
    fun _ => ⟨0, none, none, rfl⟩
  obtain ⟨cores, hreach, hview⟩ := StepSystem.exists_reachableBy_runAllowed
    (StepSystem.eachStep (KeepsFailures {}))
    (fun cores => ((cores ()).phase, (cores ()).bestOffset, (cores ()).backoffFailBound))
    (.confirmed, some (-4), some (-5)) reconfirmedEvents hstart (by decide +kernel)
  simp only [Prod.mk.injEq] at hview
  obtain ⟨hphase, hbest, hbound⟩ := hview
  exact ⟨cores, hreach, hphase, hbest, hbound,
    (failures_outrank_passes Unit (by decide +kernel)).2 cores hreach ()⟩

end Tuner
end CoreCycler
