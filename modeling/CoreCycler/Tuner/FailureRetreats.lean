import CoreCycler.Tuner.CoreRuns

/-!
# No failure makes a core more aggressive

A failed slot or a validation back-off retreats to ground the core stood on before:
its best offset, its pass bound, or its baseline.  That is a retreat only while the
ground lies short of the offset under test.  `Track.Ordered` is that order, kept by
every verdict; `KeepsOrder` says which of the other steps keep it.
-/

namespace CoreCycler
namespace Tuner

open Library TunerConfig

namespace Track

/-- The phases that test an offset past everything known. -/
def isSearching (phase : TunerPhase) : Bool :=
  phase = .coarseSearch ∨ phase = .fineSearch ∨ phase = .annealing

/-- The order a phase keeps its ground in: the baseline, the known offset, the offset
under test, the cap. -/
def PhaseOrder (cap : Int) (track : Track) : Prop :=
  match track.phase with
  | .notStarted => track.known = track.baseline ∧ track.passBound = none
  | .coarseSearch | .fineSearch =>
      track.baseline ≤ track.known ∧ track.known < track.current ∧ track.current ≤ cap ∧
        track.passBound = none
  | .annealing =>
      track.baseline ≤ track.known ∧ track.known < track.current ∧ track.current ≤ cap ∧
        track.best ≠ none
  | .confirming | .backoffPreconfirm | .backoffConfirming =>
      track.baseline ≤ track.known ∧ track.known ≤ track.current ∧ track.current ≤ cap
  | .settled | .failedConfirm | .confirmed =>
      track.baseline ≤ track.known ∧ track.known ≤ cap

/-- The ground and the bounds of a core lie in order. -/
structure Ordered (cap : Int) (track : Track) : Prop where
  ground : PhaseOrder cap track
  failBound : ∀ bound, track.failBound = some bound → bound ≤ cap
  between : track.PassBetween

variable {fine cap : Int} {before after : Track}

theorem Ordered.searching (hordered : before.Ordered cap)
    (hphase : before.phase = .coarseSearch ∨ before.phase = .fineSearch) :
    before.baseline ≤ before.known ∧ before.known < before.current ∧ before.current ≤ cap ∧
      before.passBound = none := by
  have hground := hordered.ground
  rcases hphase with hphase | hphase <;> simpa only [PhaseOrder, hphase] using hground

theorem Ordered.annealing (hordered : before.Ordered cap) (hphase : before.phase = .annealing) :
    before.baseline ≤ before.known ∧ before.known < before.current ∧ before.current ≤ cap ∧
      before.best ≠ none := by
  simpa only [PhaseOrder, hphase] using hordered.ground

theorem Ordered.confirming (hordered : before.Ordered cap)
    (hphase : before.phase = .confirming) :
    before.baseline ≤ before.known ∧ before.known ≤ before.current ∧ before.current ≤ cap := by
  simpa only [PhaseOrder, hphase] using hordered.ground

theorem Ordered.backoff (hordered : before.Ordered cap) (hphase : isBackoff before.phase = true) :
    before.baseline ≤ before.known ∧ before.known ≤ before.current ∧ before.current ≤ cap := by
  have hground := hordered.ground
  rcases isBackoff_iff.mp hphase with hphase | hphase <;>
    simpa only [PhaseOrder, hphase] using hground

theorem Ordered.resting (hordered : before.Ordered cap)
    (hphase : before.phase = .settled ∨ before.phase = .failedConfirm ∨
      before.phase = .confirmed) :
    before.baseline ≤ before.known ∧ before.known ≤ cap := by
  have hground := hordered.ground
  rcases hphase with hphase | hphase | hphase <;>
    simpa only [PhaseOrder, hphase] using hground

theorem known_eq_of_best {track : Track} {best : Int} (hbest : track.best = some best) :
    track.known = best := by
  rw [known, hbest, Option.getD_some]

/-! ## Verdicts -/

theorem Ordered.passed (hordered : before.Ordered cap) (hfine : 0 ≤ fine)
    (hpassed : Passed fine cap before after) : after.Ordered cap := by
  cases hpassed with
  | deeper hphase hlt hcap =>
      obtain ⟨hbase, hknown, -, hnone⟩ := hordered.searching hphase
      refine ⟨?_, hordered.failBound, .of_none hnone⟩
      rcases hphase with hphase | hphase <;> simp only [PhaseOrder, hphase] <;>
        exact ⟨(hbase.trans_lt hknown).le, hlt, hcap, hnone⟩
  | searched hphase =>
      obtain ⟨hbase, hknown, hcap, hnone⟩ := hordered.searching hphase
      exact ⟨⟨(hbase.trans_lt hknown).le, hcap⟩, hordered.failBound, .of_none hnone⟩
  | confirmed hphase =>
      obtain ⟨hbase, hknown, hcap⟩ := hordered.confirming hphase
      exact ⟨⟨hbase, hknown.trans hcap⟩, hordered.failBound, hordered.between⟩
  | annealed hphase hshort =>
      obtain ⟨hbase, hknown, hcap, -⟩ := hordered.annealing hphase
      exact ⟨⟨(hbase.trans_lt hknown).le, hcap⟩, hordered.failBound, hordered.between⟩
  | annealRefused hphase =>
      obtain ⟨hbase, hknown, hcap, -⟩ := hordered.annealing hphase
      exact ⟨⟨hbase, hknown.le.trans hcap⟩, hordered.failBound, hordered.between⟩
  | grounded hphase =>
      obtain ⟨hbase, hknown, hcap⟩ := hordered.backoff hphase
      exact ⟨⟨le_rfl, le_rfl, hbase.trans (hknown.trans hcap)⟩, hordered.failBound,
        hordered.between⟩
  | @contradicted bound hphase hbound habove =>
      obtain ⟨hbase, hknown, hcap⟩ := hordered.backoff hphase
      have hwithin := hordered.failBound bound hbound
      refine ⟨⟨le_min hbase habove.le, min_le_right _ _, ?_⟩, hordered.failBound,
        hordered.between⟩
      simp only
      omega
  | preconfirmed hphase hshort =>
      obtain ⟨hbase, hknown, hcap⟩ := hordered.backoff (isBackoff_iff.mpr (.inl hphase))
      refine ⟨⟨hbase.trans hknown, le_rfl, hcap⟩, hordered.failBound, ?_⟩
      rintro passed ⟨⟩
      exact ⟨hbase.trans hknown, hshort⟩
  | backoffConfirmed hphase hshort =>
      obtain ⟨hbase, hknown, hcap⟩ := hordered.backoff (isBackoff_iff.mpr (.inr hphase))
      refine ⟨⟨hbase.trans hknown, hcap⟩, hordered.failBound, ?_⟩
      rintro passed ⟨⟩
      exact ⟨hbase.trans hknown, hshort⟩
  | bisected hphase hbound hlt hmid =>
      obtain ⟨hbase, hknown, hcap⟩ := hordered.backoff hphase
      have hwithin := hordered.failBound _ hbound
      refine ⟨⟨hbase.trans hknown, hlt.le, (hmid.trans_le hwithin).le⟩, hordered.failBound, ?_⟩
      rintro passed ⟨⟩
      refine ⟨hbase.trans hknown, fun bound hbound' => ?_⟩
      obtain rfl := Option.some.inj (hbound.symm.trans hbound')
      exact hlt.trans hmid

/-- The bounds of a back-off that failed stay in order wherever it goes next. -/
theorem Ordered.backedOff (hordered : before.Ordered cap) (hcap : before.current ≤ cap)
    {phase : TunerPhase} {current : Int} {best : Option Int}
    (hground : PhaseOrder cap
      { before.backedOff with phase := phase, best := best, current := current }) :
    Ordered cap { before.backedOff with phase := phase, best := best, current := current } := by
  refine ⟨hground, ?_, ?_⟩
  · rintro bound ⟨⟩
    exact (failedAt_le before before.current).trans hcap
  · intro passed hpass
    obtain ⟨hbase, hshort, -⟩ := hordered.between.tightened before.current hpass
    refine ⟨hbase, ?_⟩
    rintro bound ⟨⟩
    exact hshort

theorem Ordered.failed (hordered : before.Ordered cap) (hfine : 1 ≤ fine) {paused : Bool}
    (hfailed : Failed fine cap before paused after) : after.Ordered cap := by
  -- One case for each way the code has to take a failure.
  cases hfailed with
  | first hphase hbest =>
      obtain ⟨hbase, hknown, hcap, hnone⟩ := hordered.searching (.inl hphase)
      refine ⟨⟨le_max_right _ _, le_rfl, ?_⟩, ?_, .of_none hnone⟩
      · simp only
        omega
      · rintro bound ⟨⟩
        exact hcap
  | @probed best hphase hbest hlt =>
      obtain ⟨hbase, hknown, hcap, hnone⟩ := hordered.searching (.inl hphase)
      have hbest' := known_eq_of_best hbest
      refine ⟨⟨hbase, ?_, min_le_right _ _, hnone⟩, hordered.failBound, .of_none hnone⟩
      change before.known < min (best + fine) cap
      omega
  | bracketed hphase hbest =>
      obtain ⟨hbase, hknown, hcap, hnone⟩ := hordered.searching (.inl hphase)
      exact ⟨⟨hbase, hknown.le.trans hcap⟩, hordered.failBound, .of_none hnone⟩
  | searched hphase =>
      obtain ⟨hbase, hknown, hcap, hnone⟩ := hordered.searching (.inr hphase)
      exact ⟨⟨hbase, hknown.le.trans hcap⟩, hordered.failBound, .of_none hnone⟩
  | confirmPaused hphase hle => exact hordered
  | retried hphase hlt => exact hordered
  | givenUp hphase hlt =>
      obtain ⟨hbase, hknown, hcap⟩ := hordered.confirming hphase
      exact ⟨⟨hbase, hknown.trans hcap⟩, hordered.failBound, hordered.between⟩
  | annealFailed hphase =>
      obtain ⟨hbase, hknown, hcap, -⟩ := hordered.annealing hphase
      exact ⟨⟨hbase, hknown.le.trans hcap⟩, hordered.failBound, hordered.between⟩
  | backoffPaused hphase hle =>
      have hground := hordered.backoff hphase
      refine hordered.backedOff hground.2.2 ?_
      rcases isBackoff_iff.mp hphase with hphase | hphase <;>
        simp only [PhaseOrder, Track.backedOff, Track.tightened, hphase] <;> exact hground
  | returned hphase hlt hpass =>
      have hground := hordered.backoff (isBackoff_iff.mpr (.inl hphase))
      obtain ⟨hbase, -, hshort⟩ := hordered.between.tightened _ hpass
      exact hordered.backedOff hground.2.2 ⟨hbase, le_rfl, (hshort.trans_le hground.2.2).le⟩
  | @bisected bound hphase hlt hpass =>
      have hground := hordered.backoff (isBackoff_iff.mpr (.inl hphase))
      obtain ⟨hbase, hshort, -⟩ := hordered.between.tightened _ hpass
      -- The bisection takes the shallowest failure, which is no deeper than this one.
      have hle := failedAt_le before before.current
      refine hordered.backedOff hground.2.2 ?_
      rw [abs_of_pos (sub_pos.mpr hshort)]
      simp only [PhaseOrder, Track.backedOff, Track.tightened, hphase, known, Option.getD_some]
      omega
  | steppedBack hphase hlt hstep =>
      have hground := hordered.backoff (isBackoff_iff.mpr (.inl hphase))
      refine hordered.backedOff hground.2.2 ?_
      simp only [PhaseOrder, Track.backedOff, Track.tightened, hphase, known, Option.getD_some]
      omega
  | floored hphase hlt hpass =>
      have hground := hordered.backoff (isBackoff_iff.mpr (.inr hphase))
      obtain ⟨hbase, -, hshort⟩ := hordered.between.tightened _ hpass
      refine hordered.backedOff hground.2.2 ?_
      simp only [PhaseOrder, Track.backedOff, Track.tightened, hphase, known, Option.getD_some]
      omega
  | reopened hphase hlt =>
      have hground := hordered.backoff (isBackoff_iff.mpr (.inr hphase))
      refine hordered.backedOff hground.2.2 ⟨le_max_right _ _, le_rfl, ?_⟩
      simp only [stepBack]
      omega

/-- What is tested or held after a failure lies no deeper than what failed, and short of
it unless the failure paused at the baseline or left a confirmation to be retried. -/
theorem Ordered.retreats (hordered : before.Ordered cap) (hfine : 1 ≤ fine) {paused : Bool}
    (hfailed : Failed fine cap before paused after) :
    (after.left fine).current ≤ before.current ∧ (after.left fine).current ≤ cap ∧
      ((after.left fine).current < before.current ∨
        paused = true ∧ before.current ≤ before.baseline ∨
        before.phase = .confirming ∧ after.phase = .confirming) := by
  cases hfailed with
  | first hphase hbest =>
      obtain ⟨hbase, hknown, hcap, -⟩ := hordered.searching (.inl hphase)
      simp only [left]
      omega
  | probed hphase hbest hlt =>
      obtain ⟨-, -, hcap, -⟩ := hordered.searching (.inl hphase)
      simp only [left]
      omega
  | bracketed hphase hbest =>
      obtain ⟨-, hknown, hcap, -⟩ := hordered.searching (.inl hphase)
      exact ⟨hknown.le, hknown.le.trans hcap, .inl hknown⟩
  | searched hphase =>
      obtain ⟨-, hknown, hcap, -⟩ := hordered.searching (.inr hphase)
      exact ⟨hknown.le, hknown.le.trans hcap, .inl hknown⟩
  | confirmPaused hphase hle =>
      obtain ⟨-, -, hcap⟩ := hordered.confirming hphase
      -- A confirmation that failed at the baseline pauses, and keeps its depth.
      simp only [left, hphase]
      exact ⟨le_rfl, hcap, .inr (.inl ⟨trivial, hle⟩)⟩
  | retried hphase hlt =>
      obtain ⟨-, -, hcap⟩ := hordered.confirming hphase
      simp only [left, hphase]
      exact ⟨le_rfl, hcap, .inr (.inr ⟨trivial, trivial⟩)⟩
  | givenUp hphase hlt =>
      obtain ⟨hbase, hknown, hcap⟩ := hordered.confirming hphase
      have hback : before.stepBack fine < before.current := by
        simp only [stepBack]
        omega
      exact ⟨hback.le, hback.le.trans hcap, .inl hback⟩
  | annealFailed hphase =>
      obtain ⟨-, hknown, hcap, hprobing⟩ := hordered.annealing hphase
      obtain ⟨best, hbest⟩ := Option.ne_none_iff_exists'.mp hprobing
      rw [known_eq_of_best hbest] at hknown
      simp only [left, hbest, Option.getD_some]
      exact ⟨hknown.le, hknown.le.trans hcap, .inl hknown⟩
  | backoffPaused hphase hle =>
      obtain ⟨-, -, hcap⟩ := hordered.backoff hphase
      rcases isBackoff_iff.mp hphase with hphase | hphase <;>
        simp only [left, Track.backedOff, Track.tightened, hphase] <;>
        exact ⟨le_rfl, hcap, .inr (.inl ⟨trivial, hle⟩)⟩
  | returned hphase hlt hpass =>
      obtain ⟨-, -, hcap⟩ := hordered.backoff (isBackoff_iff.mpr (.inl hphase))
      obtain ⟨-, -, hshort⟩ := hordered.between.tightened _ hpass
      exact ⟨hshort.le, hshort.le.trans hcap, .inl hshort⟩
  | bisected hphase hlt hpass =>
      obtain ⟨-, -, hcap⟩ := hordered.backoff (isBackoff_iff.mpr (.inl hphase))
      obtain ⟨-, hshort, -⟩ := hordered.between.tightened _ hpass
      have hle := failedAt_le before before.current
      rw [abs_of_pos (sub_pos.mpr hshort)]
      simp only [left, Track.backedOff, Track.tightened, hphase]
      omega
  | steppedBack hphase hlt hstep =>
      obtain ⟨-, -, hcap⟩ := hordered.backoff (isBackoff_iff.mpr (.inl hphase))
      simp only [left, Track.backedOff, Track.tightened, hphase]
      omega
  | floored hphase hlt hpass =>
      obtain ⟨-, -, hcap⟩ := hordered.backoff (isBackoff_iff.mpr (.inr hphase))
      obtain ⟨-, -, hshort⟩ := hordered.between.tightened _ hpass
      simp only [left, Track.backedOff, Track.tightened, hphase]
      exact ⟨hshort.le, hshort.le.trans hcap, .inl hshort⟩
  | reopened hphase hlt =>
      obtain ⟨hbase, hknown, hcap⟩ := hordered.backoff (isBackoff_iff.mpr (.inr hphase))
      have hback : before.stepBack fine < before.current := by
        simp only [stepBack]
        omega
      exact ⟨hback.le, hback.le.trans hcap, .inl hback⟩

/-! ## The other steps -/

theorem Ordered.begun (hordered : before.Ordered cap) (hphase : before.phase = .notStarted)
    {first : Int} (hfirst : before.baseline < first) (hcap : first ≤ cap) :
    (before.begun first).Ordered cap := by
  obtain ⟨hknown, hnone⟩ : before.known = before.baseline ∧ before.passBound = none := by
    simpa only [PhaseOrder, hphase] using hordered.ground
  refine ⟨⟨?_, ?_, hcap, hnone⟩, hordered.failBound, .of_none hnone⟩
  · exact hknown.ge
  · exact hknown.trans_lt hfirst

theorem Ordered.left (hordered : before.Ordered cap) (hfine : 0 ≤ fine) :
    (before.left fine).Ordered cap := by
  rw [Track.left]
  split
  · next hphase =>
      obtain ⟨hbase, hcap⟩ := hordered.resting (.inl hphase)
      exact ⟨⟨hbase, le_rfl, hcap⟩, hordered.failBound, hordered.between⟩
  · next hphase =>
      obtain ⟨hbase, hcap⟩ := hordered.resting (.inr (.inl hphase))
      refine ⟨⟨le_max_right _ _, le_rfl, ?_⟩, hordered.failBound, hordered.between⟩
      simp only [stepBack]
      omega
  · exact hordered

/-- The penalties that keep the order: off stock, on the aggressive side of it, within the
cap, and leaving an open probe past the known ground; at stock, where nothing known lies
past stock. -/
def Retreatable (cap : Int) (track : Track) (resident back : Int) : Prop :=
  if resident = 0 then
    isStepped track.phase = true →
      0 ≤ cap ∧ track.known ≤ 0 ∧ (isSearching track.phase = true → track.known < 0)
  else 0 < resident ∧ resident ≤ cap ∧
    (track.phase = .annealing → track.known < track.landing resident back)

/-- The baseline a penalty leaves. -/
def penalizedBaseline (track : Track) (resident back : Int) : Int :=
  if resident ≤ track.baseline then back else track.baseline

theorem penalizedBaseline_le_landing (track : Track) (resident back : Int) :
    track.penalizedBaseline resident back ≤ track.landing resident back := by
  rw [penalizedBaseline, landing]
  split_ifs
  · exact le_rfl
  · exact le_max_right _ _

/-- The baseline stays at or below the known ground through a penalty, and level with it
where it was. -/
theorem penalizedBaseline_le_known {resident back : Int} (hback : back < resident)
    (hbase : before.baseline ≤ before.known) :
    before.penalizedBaseline resident back ≤
        min (before.best.getD (before.penalizedBaseline resident back))
          (before.landing resident back) ∧
      (before.known = before.baseline →
        min (before.best.getD (before.penalizedBaseline resident back))
          (before.landing resident back) = before.penalizedBaseline resident back) := by
  have hlanding := penalizedBaseline_le_landing before resident back
  rw [known] at hbase
  rw [known]
  cases hbest : before.best with
  | none =>
      simp only [Option.getD_none]
      omega
  | some best =>
      simp only [hbest, Option.getD_some, penalizedBaseline, landing] at hbase hlanding ⊢
      split_ifs at hlanding ⊢ <;> omega

/-- Moving a core within the order its phase keeps. -/
theorem Ordered.movedTo (hordered : before.Ordered cap) {current : Int}
    (hmoved : isStepped before.phase = true → current ≤ cap ∧ before.known ≤ current ∧
      (isSearching before.phase = true → before.known < current)) :
    Ordered cap { before with current := current } := by
  refine ⟨?_, hordered.failBound, hordered.between⟩
  have hground := hordered.ground
  cases hphase : before.phase <;> simp only [PhaseOrder, hphase] at hground ⊢
  case notStarted | settled | failedConfirm | confirmed => exact hground
  case coarseSearch | fineSearch | annealing =>
    obtain ⟨hcap, -, hlt⟩ := hmoved (by simp [hphase, isStepped])
    exact ⟨hground.1, hlt (by simp [hphase, isSearching]), hcap, hground.2.2.2⟩
  case confirming | backoffPreconfirm | backoffConfirming =>
    obtain ⟨hcap, hle, -⟩ := hmoved (by simp [hphase, isStepped])
    exact ⟨hground.1, hle, hcap⟩

/-- Outside a search not yet begun the baseline is known ground within the cap. -/
theorem Ordered.begun_ground (hordered : before.Ordered cap)
    (hphase : before.phase ≠ .notStarted) :
    before.baseline ≤ before.known ∧ before.known ≤ cap := by
  have hground := hordered.ground
  cases hphase' : before.phase <;> simp only [PhaseOrder, hphase'] at hground <;>
    first
      | exact absurd hphase' hphase
      | omega

theorem Ordered.penalized (hordered : before.Ordered cap) {resident back : Int}
    (hallowed : before.Retreatable cap resident back) (hretreat : 0 < resident → back < resident) :
    (before.penalized resident back).Ordered cap := by
  by_cases hstock : resident = 0
  · simp only [Retreatable, if_pos hstock] at hallowed
    simp only [Track.penalized, if_pos hstock]
    exact hordered.movedTo hallowed
  · simp only [Retreatable, if_neg hstock] at hallowed
    obtain ⟨hbeyond, hcap, hopen⟩ := hallowed
    have hback := hretreat hbeyond
    simp only [Track.penalized, if_neg hstock]
    refine ⟨?_, ?_, ?_⟩
    · by_cases hphase : before.phase = .notStarted
      · have hfresh := hordered.ground
        simp only [PhaseOrder, hphase] at hfresh
        have hlevel := (penalizedBaseline_le_known hback hfresh.1.ge).2 hfresh.1
        simp only [PhaseOrder, hphase, forcedIntoBackoff]
        exact ⟨hlevel, by simp [tightened, hfresh.2]⟩
      · obtain ⟨hbase, hknown⟩ := hordered.begun_ground hphase
        have hground := (penalizedBaseline_le_known hback hbase).1
        have hwithin : before.landing resident back ≤ cap := by
          rw [landing]
          split_ifs <;> omega
        cases hphase' : before.phase <;> simp only [PhaseOrder, forcedIntoBackoff]
        case notStarted => exact absurd hphase' hphase
        case annealing =>
          obtain ⟨-, -, -, hprobing⟩ := hordered.annealing hphase'
          obtain ⟨best, hbest⟩ := Option.ne_none_iff_exists'.mp hprobing
          have hahead := hopen hphase'
          rw [known_eq_of_best hbest] at hahead
          refine ⟨hground, ?_, hwithin, by simp⟩
          simp only [known, hbest, Option.getD_some]
          exact min_lt_of_left_lt hahead
        case settled | failedConfirm =>
          exact ⟨hground, (min_le_right _ _).trans hwithin⟩
        case coarseSearch | fineSearch | confirming | confirmed | backoffPreconfirm |
            backoffConfirming =>
          exact ⟨hground, min_le_right _ _, hwithin⟩
    · rintro bound ⟨⟩
      exact (failedAt_le before resident).trans hcap
    · intro passed hpassed
      obtain ⟨hbase, hshort, hlt⟩ := hordered.between.tightened resident hpassed
      refine ⟨?_, ?_⟩
      · split_ifs <;> omega
      · rintro bound ⟨⟩
        exact hshort

theorem Ordered.probing (hordered : before.Ordered cap) (hfine : 1 ≤ fine)
    (hphase : before.phase = .confirmed) {best : Int} (hbest : before.best = some best)
    (hcap : best + fine ≤ cap) : (before.probing fine).Ordered cap := by
  obtain ⟨hbase, -⟩ := hordered.resting (.inr (.inr hphase))
  have hknown := known_eq_of_best hbest
  refine ⟨⟨hbase, ?_, ?_, ?_⟩, hordered.failBound, hordered.between⟩
  · change before.known < before.known + fine
    omega
  · simp only [Track.probing]
    omega
  · simp [Track.probing, hbest]

theorem Ordered.validationStep (hordered : before.Ordered cap) (hfine : 0 ≤ fine)
    (hphase : before.phase = .confirmed) : (before.validationStep fine).Ordered cap := by
  obtain ⟨hbase, hcap⟩ := hordered.resting (.inr (.inr hphase))
  refine ⟨?_, hordered.failBound, hordered.between⟩
  simp only [PhaseOrder, Track.validationStep, hphase, known, Option.getD_some]
  refine ⟨le_max_right _ _, ?_⟩
  simp only [stepBack]
  omega

theorem known_pulled (track : Track) (survived : Int) :
    (track.pulled survived).known = min track.known survived := by
  simp only [Track.pulled, known]
  cases track.best <;> rfl

theorem Ordered.pulled (hordered : before.Ordered cap) {survived : Int}
    (hallowed : isSearching before.phase = true → before.known < survived) :
    (before.pulled survived).Ordered cap := by
  refine ⟨?_, hordered.failBound, fun passed hpassed => ?_⟩
  · have hground := hordered.ground
    have hknown := known_pulled before survived
    have hbaseline : (before.pulled survived).baseline = min before.baseline survived := rfl
    have hcurrent : (before.pulled survived).current = min before.current survived := rfl
    have hphase : (before.pulled survived).phase = before.phase := rfl
    simp only [PhaseOrder, hphase, hknown, hbaseline, hcurrent]
    cases hbefore : before.phase <;> simp only [PhaseOrder, hbefore] at hground ⊢
    case notStarted => exact ⟨by omega, hground.2⟩
    case coarseSearch | fineSearch =>
      have hlt := hallowed (by simp [hbefore, isSearching])
      exact ⟨by omega, by omega, by omega, hground.2.2.2⟩
    case annealing =>
      have hlt := hallowed (by simp [hbefore, isSearching])
      exact ⟨by omega, by omega, by omega, by simpa [Track.pulled] using hground.2.2.2⟩
    all_goals omega
  · obtain ⟨hbase, hshort⟩ := hordered.between passed hpassed
    exact ⟨(min_le_left _ _).trans hbase, hshort⟩

theorem Ordered.rolledBack {depth : Int} (hbase : before.baseline ≤ depth) (hcap : depth ≤ cap) :
    (before.rolledBack depth).Ordered cap :=
  ⟨⟨hbase, le_rfl, hcap⟩, by simp [Track.rolledBack], .of_none rfl⟩

theorem Ordered.reopenedAt (hordered : before.Ordered cap) (hphase : before.phase = .confirmed)
    {best : Int} (hbest : before.best = some best) : (before.reopenedAt best).Ordered cap := by
  obtain ⟨hbase, hcap⟩ := hordered.resting (.inr (.inr hphase))
  rw [known_eq_of_best hbest] at hbase hcap
  exact ⟨⟨hbase, le_rfl, hcap⟩, hordered.failBound, hordered.between⟩

end Track

variable {config : TunerConfig} {cs next : CoreState}

/-- The offset tested or held once a FAIL and the automatic step after it are done. -/
def heldAfterFail (config : TunerConfig) (cs : CoreState) : Int :=
  (leaveSettled config (advanceCore config cs false).core).currentOffset

/-- A FAIL retreats: what is tested or held next is no more aggressive than what failed and
within `max_offset`, and less aggressive unless a confirmation is retried or the session
pauses at the baseline. -/
structure FailRetreats (config : TunerConfig) (cs : CoreState) : Prop where
  notDeeper : config.depth (heldAfterFail config cs) ≤ config.depth cs.currentOffset
  withinMax : config.depth (heldAfterFail config cs) ≤ config.depth config.maxOffset
  strict : config.depth (heldAfterFail config cs) < config.depth cs.currentOffset ∨
    (advanceCore config cs false).paused = true ∧
      config.depth cs.currentOffset ≤ config.depth cs.baselineOffset ∨
    cs.phase = .confirming ∧ (advanceCore config cs false).core.phase = .confirming

/-- A validation back-off retreats. -/
def BackoffRetreats (config : TunerConfig) (cs : CoreState) : Prop :=
  ∀ best after, cs.bestOffset = some best → backoffCore config cs = some after →
    config.depth after.currentOffset < config.depth best ∧
      config.depth after.currentOffset ≤ config.depth config.maxOffset

/-- What a core falls back on, in depth. -/
def knownDepth (config : TunerConfig) (cs : CoreState) : Int :=
  config.depth (cs.bestOffset.getD cs.baselineOffset)

/-- The steps that keep the ground of a core in order: its first slot runs past its
baseline; a penalty lies past stock and within `max_offset` and lands an open probe past
what the core knows (at stock nothing known lies past stock); a re-engagement leaves a
search past what it knows; a rollback lies between the baseline and `max_offset`. -/
def KeepsOrder (config : TunerConfig) (cs : CoreState) : CoreEvent → Prop
  | .launch => cs.phase = .notStarted → config.depth cs.baselineOffset < firstDepth config cs
  | .penalty resident steps _ =>
      if resident = 0 then
        isStepped cs.phase = true → 0 ≤ config.depth config.maxOffset ∧
          knownDepth config cs ≤ 0 ∧
          (Track.isSearching cs.phase = true → knownDepth config cs < 0)
      else
        0 < config.depth resident ∧ config.depth resident ≤ config.depth config.maxOffset ∧
          (cs.phase = .annealing →
            knownDepth config cs < penaltyLanding config cs resident steps)
  | .reengage survived =>
      Track.isSearching cs.phase = true → knownDepth config cs < config.depth survived
  | .rollback mostAggressivePass =>
      config.depth cs.baselineOffset ≤
          config.depth (mostAggressivePass.getD cs.baselineOffset) ∧
        config.depth (mostAggressivePass.getD cs.baselineOffset) ≤
          config.depth config.maxOffset
  | _ => True

/-- The order of a core. -/
abbrev OrderedCore (config : TunerConfig) (cs : CoreState) : Prop :=
  (trackOf config cs).Ordered (config.depth config.maxOffset)

theorem ordered_start (hvalid : config.Valid) (hstart : (coreSystem config).Start cs) :
    OrderedCore config cs := by
  obtain ⟨coreId, seed, readBack, rfl⟩ := hstart
  obtain ⟨track, htrack, hbest, hfail, hpass, hphase⟩ :=
    startCore_track hvalid coreId seed readBack
  have hknown : track.known = track.baseline := by rw [Track.known, hbest, Option.getD_none]
  rw [OrderedCore, htrack]
  refine ⟨?_, by simp [hfail], .of_none hpass⟩
  rcases hphase with hphase | ⟨hphase, hlt, -, hcap⟩
  · simp only [Track.PhaseOrder, hphase]
    exact ⟨hknown, hpass⟩
  · simp only [Track.PhaseOrder, hphase]
    exact ⟨hknown.ge, hknown.trans_lt hlt, hcap, hpass⟩

theorem ordered_step (hvalid : config.Valid) {event : CoreEvent}
    (hordered : OrderedCore config cs) (hkeeps : KeepsOrder config cs event)
    (hstep : stepCore config cs event = some next) : OrderedCore config next := by
  have hdir := hvalid.direction
  have hfine := hvalid.fineStep_pos
  have hmove := stepCore_track hvalid hstep
  rw [OrderedCore] at hordered ⊢
  cases event with
  | launch =>
      obtain ⟨-, htrack⟩ := hmove
      rw [htrack]
      split_ifs with hphase
      · exact hordered.begun hphase (hkeeps hphase) (min_le_right _ _)
      · exact hordered.left (by omega)
  | verdict passed =>
      cases passed with
      | true => exact hordered.passed (by omega) hmove.2
      | false =>
          obtain ⟨-, paused, hfailed⟩ := hmove
          exact hordered.failed hfine hfailed
  | penalty resident steps countCrash =>
      obtain ⟨hsteps, htrack⟩ := hmove
      rw [htrack]
      refine hordered.penalized ?_ (penaltyDepth_lt hvalid hsteps)
      have hlanding := penaltyLanding_eq hdir cs resident steps
      simp only [Track.Retreatable, depth_eq_zero hdir, trackOf_known]
      split_ifs with hstock
      · simp only [KeepsOrder, if_pos hstock] at hkeeps
        exact hkeeps
      · rw [if_neg (mt (depth_eq_zero hdir).mp hstock)] at hlanding
        simp only [KeepsOrder, if_neg hstock, hlanding] at hkeeps
        exact hkeeps
  | anneal hours =>
      obtain ⟨hphase, ⟨best, hbest, hcap⟩, htrack⟩ := hmove
      rw [htrack]
      exact hordered.probing hfine hphase hbest hcap
  | backOff =>
      obtain ⟨hphase, -, htrack⟩ := hmove
      rw [htrack]
      exact hordered.validationStep (by omega) hphase
  | reengage survived =>
      have htrack : trackOf config next = (trackOf config cs).pulled (config.depth survived) :=
        hmove
      rw [htrack]
      refine hordered.pulled ?_
      rw [trackOf_known]
      exact hkeeps
  | rollback mostAggressivePass =>
      obtain ⟨-, htrack⟩ := hmove
      rw [htrack]
      exact .rolledBack hkeeps.1 hkeeps.2
  | revalidate =>
      obtain ⟨hphase, best, hbest, htrack⟩ := hmove
      rw [htrack]
      exact hordered.reopenedAt hphase hbest
  | account books =>
      have htrack : trackOf config next = trackOf config cs := hmove
      rwa [htrack]

theorem failRetreats_of_ordered (hvalid : config.Valid) (hordered : OrderedCore config cs)
    (hstepped : isStepped cs.phase = true) : FailRetreats config cs := by
  obtain ⟨paused, hfailed, hpaused⟩ := advanceCore_failed hvalid hstepped
  have hretreats := hordered.retreats hvalid.fineStep_pos hfailed
  have hheld : ((trackOf config (advanceCore config cs false).core).left config.fineStep).current =
      config.depth (heldAfterFail config cs) := by
    rw [← leaveSettled_track hvalid]
    rfl
  rw [hheld] at hretreats
  obtain ⟨hle, hcap, hstrict⟩ := hretreats
  exact ⟨hle, hcap, hstrict.imp_right (Or.imp_left (And.imp_left hpaused))⟩

theorem backoffRetreats_of_ordered (hvalid : config.Valid) (hordered : OrderedCore config cs)
    (hphase : cs.phase = .confirmed) : BackoffRetreats config cs := by
  intro best after hbest hsome
  have hfine := hvalid.fineStep_pos
  obtain ⟨htrack, old, hold, habove⟩ := backoffCore_track hvalid.direction hsome
  obtain rfl := Option.some.inj (hold.symm.trans hbest)
  obtain ⟨hbase, hcap⟩ := hordered.resting (.inr (.inr hphase))
  have hcurrent : config.depth after.currentOffset =
      (trackOf config cs).stepBack config.fineStep := congrArg Track.current htrack
  rw [hcurrent, Track.stepBack]
  rw [trackOf_known, hold, Option.getD_some] at hbase hcap ⊢
  simp only [trackOf_baseline] at hbase ⊢
  omega

/-- **Failures retreat.**  In sessions whose steps keep the ground of every core in order, a
FAIL of any slot and every validation back-off retreats. -/
theorem failures_retreat (Core : Type*) [DecidableEq Core] (hvalid : config.Valid)
    {cores : Core → CoreState}
    (hreach : (sessionSystem Core config).ReachableBy
      (StepSystem.eachStep (KeepsOrder config)) cores) (core : Core) :
    (isStepped (cores core).phase = true → FailRetreats config (cores core)) ∧
      ((cores core).phase = .confirmed → BackoffRetreats config (cores core)) := by
  have hordered : OrderedCore config (cores core) :=
    (hreach.component core).invariant (fun _ hstart => ordered_start hvalid hstart)
      (fun _ _ _ hinv hkeeps hstep => ordered_step hvalid hinv hkeeps hstep)
  exact ⟨failRetreats_of_ordered hvalid hordered, backoffRetreats_of_ordered hvalid hordered⟩

/-- A search that inherits what the SMU holds and may go to -30. -/
def inheritingSearch : TunerConfig := { inheritCurrent := true, maxOffset := -30 }

/-- With -45 in the SMU the first slot runs at -30, and a FAIL there goes back to -45. -/
theorem inherited_failure_deepens :
    inheritingSearch.Valid ∧
      ∃ cs, (coreSystem inheritingSearch).Reachable cs ∧ cs.phase = .coarseSearch ∧
        cs.currentOffset = -30 ∧ heldAfterFail inheritingSearch cs = -45 ∧
        ¬ FailRetreats inheritingSearch cs := by
  refine ⟨by decide +kernel, ?_⟩
  have hstart : (coreSystem inheritingSearch).Start
      (startCore inheritingSearch 0 none (some (-45))) := ⟨0, none, some (-45), rfl⟩
  obtain ⟨cs, hreach, hview⟩ := StepSystem.exists_reachable
    (fun cs => (cs.phase, cs.currentOffset, heldAfterFail inheritingSearch cs))
    (.coarseSearch, -30, -45) [.launch] hstart (by decide +kernel)
  simp only [Prod.mk.injEq] at hview
  obtain ⟨hphase, hcurrent, hheld⟩ := hview
  refine ⟨cs, hreach, hphase, hcurrent, hheld, fun hretreats => ?_⟩
  have hle := hretreats.notDeeper
  rw [hheld, hcurrent] at hle
  revert hle
  decide

/-- The first slot of the default search runs past its baseline, and a FAIL there
retreats. -/
theorem failures_retreat_default :
    ∃ cores : Unit → CoreState,
      (sessionSystem Unit {}).ReachableBy (StepSystem.eachStep (KeepsOrder {})) cores ∧
        (cores ()).phase = .coarseSearch ∧ FailRetreats {} (cores ()) := by
  have hstart : (sessionSystem Unit {}).Start fun _ => startCore {} 0 none none :=
    fun _ => ⟨0, none, none, rfl⟩
  have hkeeps : StepSystem.eachStep (KeepsOrder {}) (fun _ : Unit => startCore {} 0 none none)
      ((), .launch) := fun _ => by decide
  have hreach := StepSystem.ReachableBy.step (.start hstart) hkeeps rfl
  exact ⟨_, hreach, by decide, ((failures_retreat Unit (by decide +kernel) hreach ()).1 (by decide))⟩

end Tuner
end CoreCycler
