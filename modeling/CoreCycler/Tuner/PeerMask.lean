import CoreCycler.Tuner.AppliedCache
import CoreCycler.Tuner.Battery
import CoreCycler.Tuner.CoreRuns

/-!
# What a peer sits at

Under the live mask every core that is not under test sits at its best offset.  That field
holds a proven offset most of the time, and a back-off candidate after two kinds of failure.
`PeerWatch` runs a core next to the offsets it has passed a slot at, `Track.Earned` is the
invariant, and `ProvesPeers` rules out the steps that break it.
-/

namespace CoreCycler
namespace Tuner

open Library TunerConfig Bisect

namespace Track

/-- The best depth is the baseline or earned, and the pass bound is earned. -/
structure Earned (earned : Int → Prop) (track : Track) : Prop where
  best : ∀ best, track.best = some best → best = track.baseline ∨ earned best
  passBound : ∀ bound, track.passBound = some bound → earned bound

variable {fine cap : Int} {earned : Int → Prop} {before after : Track}

/-- The known ground is the baseline or earned. -/
theorem Earned.known (hearned : before.Earned earned) :
    before.known = before.baseline ∨ earned before.known := by
  rw [Track.known]
  cases hbest : before.best with
  | none => exact .inl rfl
  | some best => exact hearned.best best hbest

/-- Everything short of earned ground is earned. -/
def DownClosed (earned : Int → Prop) : Prop := ∀ ⦃shallow deep⦄, shallow ≤ deep → earned deep →
  earned shallow

/-- A step back from the known ground. -/
theorem Earned.stepBack (hearned : before.Earned earned) (hdown : DownClosed earned)
    (hfine : 0 ≤ fine) :
    before.stepBack fine = before.baseline ∨ earned (before.stepBack fine) := by
  rw [Track.stepBack]
  rcases le_total (before.known - fine) before.baseline with hle | hle
  · exact .inl (max_eq_right hle)
  · rw [max_eq_left hle]
    rcases hearned.known with hbase | hknown
    · exact .inl (by omega)
    · exact .inr (hdown (by omega) hknown)

theorem Earned.passed (hearned : before.Earned earned) (hdown : DownClosed earned)
    (hcurrent : earned before.current) (hpassed : Passed fine cap before after) : after.Earned earned := by
  have hbest : ∀ best, some before.current = some best → best = before.baseline ∨ earned best := by
    rintro best ⟨⟩
    exact .inr hcurrent
  have hbound : ∀ bound, some before.current = some bound → earned bound := by
    rintro bound ⟨⟩
    exact hcurrent
  cases hpassed with
  | deeper _ _ _ => exact ⟨hbest, hearned.passBound⟩
  | searched _ => exact ⟨hbest, hearned.passBound⟩
  | confirmed _ => exact ⟨hearned.best, hearned.passBound⟩
  | annealed _ _ => exact ⟨hbest, hearned.passBound⟩
  | annealRefused _ => exact ⟨hearned.best, hearned.passBound⟩
  | grounded _ =>
      refine ⟨?_, hearned.passBound⟩
      rintro best ⟨⟩
      exact .inl rfl
  | @contradicted bound _ _ habove =>
      refine ⟨?_, hearned.passBound⟩
      rintro best ⟨⟩
      rcases hearned.known with hbase | hknown
      · exact .inl (by rw [hbase]; exact min_eq_left habove.le)
      · exact .inr (hdown (min_le_left _ _) hknown)
  | preconfirmed _ _ => exact ⟨hbest, hbound⟩
  | backoffConfirmed _ _ => exact ⟨hbest, hbound⟩
  | bisected _ _ _ _ => exact ⟨hbest, hbound⟩

/-- A back-off with its failure recorded. -/
theorem Earned.backedOff (hearned : before.Earned earned) : before.backedOff.Earned earned := by
  refine ⟨?_, fun bound hbound => hearned.passBound bound (tightened_passBound.mp hbound).1⟩
  rintro best ⟨⟩
  exact hearned.known

/-- A pass bound that survives a failure. -/
theorem Earned.tightened (hearned : before.Earned earned) {depth bound : Int}
    (hpass : (before.tightened depth).passBound = some bound) : earned bound :=
  hearned.passBound bound (tightened_passBound.mp hpass).1

/-- A FAIL, but for the two that retreat to untested ground. -/
theorem Earned.failed (hearned : before.Earned earned) (hdown : DownClosed earned)
    (hfine : 0 ≤ fine) {paused : Bool} (hphase : before.phase ≠ .backoffPreconfirm)
    (hfirst : before.phase = .coarseSearch → before.best ≠ none)
    (hfailed : Failed fine cap before paused after) : after.Earned earned := by
  have hbacked := hearned.backedOff
  cases hfailed with
  | first hcoarse hnone => exact absurd hnone (hfirst hcoarse)
  | probed _ _ _ => exact ⟨hearned.best, hearned.passBound⟩
  | bracketed _ _ => exact ⟨hearned.best, hearned.passBound⟩
  | searched _ => exact ⟨hearned.best, hearned.passBound⟩
  | confirmPaused _ _ => exact hearned
  | retried _ _ => exact hearned
  | givenUp _ _ => exact ⟨hearned.best, hearned.passBound⟩
  | annealFailed _ => exact ⟨hearned.best, hearned.passBound⟩
  | backoffPaused _ _ => exact hbacked
  | returned hpreconfirm _ _ => exact absurd hpreconfirm hphase
  | bisected hpreconfirm _ _ => exact absurd hpreconfirm hphase
  | steppedBack hpreconfirm _ _ => exact absurd hpreconfirm hphase
  | floored _ _ hpass =>
      refine ⟨?_, hbacked.passBound⟩
      rintro best ⟨⟩
      exact .inr (hearned.tightened hpass)
  | reopened _ _ =>
      refine ⟨?_, hbacked.passBound⟩
      rintro best ⟨⟩
      exact hearned.stepBack hdown hfine

theorem Earned.left (hearned : before.Earned earned) (hdown : DownClosed earned)
    (hfine : 0 ≤ fine) : (before.left fine).Earned earned := by
  unfold Track.left
  split
  · refine ⟨?_, hearned.passBound⟩
    rintro best ⟨⟩
    exact hearned.known
  · refine ⟨?_, hearned.passBound⟩
    rintro best ⟨⟩
    exact hearned.stepBack hdown hfine
  · exact hearned

/-- A penalty, but for the one that raises a baseline to stock under a core sitting at it. -/
theorem Earned.penalized (hearned : before.Earned earned) (hdown : DownClosed earned)
    {resident back : Int} (hback : resident ≠ 0 → resident ≤ before.baseline →
      before.best = some before.baseline → before.baseline < back → earned before.baseline) :
    (before.penalized resident back).Earned earned := by
  unfold Track.penalized
  split
  · exact ⟨hearned.best, hearned.passBound⟩
  next htuned =>
  refine ⟨?_, fun bound hbound => hearned.tightened hbound⟩
  rintro best ⟨⟩
  dsimp only
  unfold Track.landing
  cases hbest : before.best with
  | none =>
      refine .inl (min_eq_left ?_)
      split
      · exact le_rfl
      · exact le_max_right _ _
  | some best =>
      rw [Option.getD_some]
      rcases hearned.best best hbest with rfl | hknown
      · split
        · next hle =>
            rcases le_or_gt back before.baseline with hshort | hdeep
            · exact .inl (min_eq_right hshort)
            · exact .inr (hdown (min_le_left _ _) (hback htuned hle hbest hdeep))
        · exact .inl (min_eq_left (le_max_right _ _))
      · exact .inr (hdown (min_le_left _ _) hknown)

theorem Earned.validationStep (hearned : before.Earned earned) (hdown : DownClosed earned)
    (hfine : 0 ≤ fine) : (before.validationStep fine).Earned earned := by
  refine ⟨?_, hearned.passBound⟩
  rintro best ⟨⟩
  exact hearned.stepBack hdown hfine

theorem Earned.pulled (hearned : before.Earned earned) (hdown : DownClosed earned)
    (survived : Int) : (before.pulled survived).Earned earned := by
  refine ⟨fun best hbest => ?_, hearned.passBound⟩
  obtain ⟨old, hold, rfl⟩ := Option.map_eq_some_iff.mp hbest
  rcases hearned.best old hold with rfl | hknown
  · exact .inl rfl
  · exact .inr (hdown (min_le_left _ _) hknown)

theorem Earned.rolledBack {depth : Int} (hdepth : depth = before.baseline ∨ earned depth) :
    (before.rolledBack depth).Earned earned := by
  refine ⟨?_, by simp [Track.rolledBack]⟩
  rintro best ⟨⟩
  exact hdepth

end Track

/-! ## Peers and what they have passed -/

/-- A core, and the offsets it has passed a slot at. -/
structure PeerWatch where
  core : CoreState
  passed : List Int := []

/-- What happens to a core. -/
inductive PeerEvent
  | core (event : CoreEvent)
  /-- A slot that settles nothing is passed at the offset the core ran at: a slot within a
  battery, of validation or of a hunt. -/
  | slotPassed (offset : Int)

namespace PeerWatch

/-- The core has passed a slot at this offset or at a more aggressive one. -/
def Proves (config : TunerConfig) (watch : PeerWatch) (offset : Int) : Prop :=
  ∃ passed ∈ watch.passed, config.isMoreAggressive offset passed = false

instance (config : TunerConfig) (watch : PeerWatch) (offset : Int) :
    Decidable (watch.Proves config offset) :=
  decidable_of_iff (∃ passed ∈ watch.passed, config.isMoreAggressive offset passed = false)
    Iff.rfl

/-- The core sits at its baseline or at a proven offset while a peer is under test. -/
def PeerProven (config : TunerConfig) (watch : PeerWatch) : Prop :=
  maskOffset watch.core .live = watch.core.baselineOffset ∨
    watch.Proves config (maskOffset watch.core .live)

instance (config : TunerConfig) (watch : PeerWatch) : Decidable (watch.PeerProven config) :=
  inferInstanceAs (Decidable (_ ∨ _))

/-- The offsets passed once an event is over. -/
def passedAfter (watch : PeerWatch) : CoreEvent → List Int
  | .verdict true => watch.core.currentOffset :: watch.passed
  | _ => watch.passed

/-- A rollback goes to the most aggressive offset that was passed. -/
def Logged (config : TunerConfig) (watch : PeerWatch) : CoreEvent → Prop
  | .rollback mostAggressivePass => mostAggressivePass = mostAggressive config watch.passed
  | _ => True

instance (config : TunerConfig) (watch : PeerWatch) (event : CoreEvent) :
    Decidable (watch.Logged config event) := by
  unfold Logged
  split <;> infer_instance

end PeerWatch

/-- A core from `start` on. -/
def peerSystem (config : TunerConfig) : StepSystem PeerWatch PeerEvent where
  Start watch := (coreSystem config).Start watch.core ∧ watch.passed = []
  step watch
    | .core event =>
        if watch.Logged config event then
          (stepCore config watch.core event).map fun core =>
            { core, passed := watch.passedAfter event }
        else
          none
    | .slotPassed offset => some { watch with passed := offset :: watch.passed }

/-- The offset a FAIL retreats to where the core has nothing to fall back on: a step short of
its first coarse offset, or of a back-off without a pass bound. -/
def backoffCandidate (config : TunerConfig) (cs : CoreState) : Option Int :=
  match cs.phase with
  | .coarseSearch =>
      if cs.bestOffset = none then
        some (cs.currentOffset - config.direction * config.fineStep)
      else
        none
  | .backoffPreconfirm =>
      if (recordCrash config cs).backoffPassBound = none then
        some (cs.currentOffset - config.direction *
          backoffStep config
            { cs with consecutiveBackoffFails := cs.consecutiveBackoffFails + 1 })
      else
        none
  | _ => none

/-- The steps that leave no untested offset as the best one: such a FAIL retreats to the
baseline or to an offset proven before; and a penalty at a baseline past stock, which descends
to stock, finds no core sitting there without having passed. -/
def ProvesPeers (config : TunerConfig) (watch : PeerWatch) : PeerEvent → Prop
  | .core (.verdict false) =>
      ∀ candidate, backoffCandidate config watch.core = some candidate →
        atOrPastBaseline config candidate watch.core = true ∨ watch.Proves config candidate
  | .core (.penalty resident _ _) =>
      resident ≠ 0 → atOrPastBaseline config resident watch.core = true →
        config.isMoreAggressive 0 watch.core.baselineOffset = true →
          watch.core.bestOffset = some watch.core.baselineOffset →
            watch.Proves config watch.core.baselineOffset
  | _ => True

variable {config : TunerConfig} {watch next : PeerWatch} {cs : CoreState}

/-- The depths a core has earned. -/
def PeerWatch.earned (config : TunerConfig) (watch : PeerWatch) (depth : Int) : Prop :=
  ∃ passed ∈ watch.passed, depth ≤ config.depth passed

theorem proves_iff (hdir : Directed.IsDirection config.direction) {offset : Int} :
    watch.Proves config offset ↔ watch.earned config (config.depth offset) := by
  unfold PeerWatch.Proves PeerWatch.earned
  refine exists_congr fun passed => and_congr_right fun _ => ?_
  rw [Bool.eq_false_iff, ne_eq, isMoreAggressive_iff hdir, not_lt]

theorem earned_downClosed (watch : PeerWatch) : Track.DownClosed (watch.earned config) := by
  rintro shallow deep hle ⟨passed, hpassed, hdeep⟩
  exact ⟨passed, hpassed, hle.trans hdeep⟩

/-- The invariant of a core. -/
abbrev EarnedCore (config : TunerConfig) (watch : PeerWatch) : Prop :=
  (trackOf config watch.core).Earned (watch.earned config)

theorem peerProven_iff (hdir : Directed.IsDirection config.direction) :
    watch.PeerProven config ↔ ∀ best, watch.core.bestOffset = some best →
      best = watch.core.baselineOffset ∨ watch.earned config (config.depth best) := by
  unfold PeerWatch.PeerProven
  rw [proves_iff hdir]
  unfold maskOffset
  cases watch.core.bestOffset with
  | none => simp
  | some best => simp

theorem peerProven_of_earned (hdir : Directed.IsDirection config.direction)
    (hearned : EarnedCore config watch) : watch.PeerProven config := by
  rw [peerProven_iff hdir]
  intro best hbest
  have hdepth := hearned.best (config.depth best) (by simp [trackOf, hbest])
  exact hdepth.imp_left (depth_inj hdir).mp

/-! ## One FAIL -/

theorem backoffCandidate_coarse (hphase : cs.phase = .coarseSearch) (hbest : cs.bestOffset = none) :
    backoffCandidate config cs =
      some (cs.currentOffset - config.direction * config.fineStep) := by
  simp only [backoffCandidate, hphase, if_pos hbest]

/-- The step a back-off without a pass bound takes. -/
def candidateStep (config : TunerConfig) (cs : CoreState) : Int :=
  config.direction *
    backoffStep config { cs with consecutiveBackoffFails := cs.consecutiveBackoffFails + 1 }

theorem backoffCandidate_preconfirm (hphase : cs.phase = .backoffPreconfirm)
    (hpass : (recordCrash config cs).backoffPassBound = none) :
    backoffCandidate config cs = some (cs.currentOffset - candidateStep config cs) := by
  simp only [backoffCandidate, hphase, if_pos hpass, candidateStep]

theorem advanceCoarse_candidate (hbest : cs.bestOffset = none) :
    (advanceCoarse config cs false).core =
      { cs with
        coarseFailOffset := some cs.currentOffset
        backoffFailBound := some cs.currentOffset
        bestOffset := some (retreatTo config cs
          (cs.currentOffset - config.direction * config.fineStep))
        currentOffset := retreatTo config cs
          (cs.currentOffset - config.direction * config.fineStep)
        backoffMode := true
        phase := .backoffPreconfirm } := by
  simp only [advanceCoarse, Bool.false_eq_true, if_false, hbest]
  rfl

theorem preconfirmFail_candidate (hpass : (recordCrash config cs).backoffPassBound = none) :
    preconfirmFail config (recordCrash config (backoffKnown cs)) =
      { recordCrash config (backoffKnown cs) with
        consecutiveBackoffFails :=
          if jumpsToMidpoint config
              { cs with consecutiveBackoffFails := cs.consecutiveBackoffFails + 1 } then 0
          else cs.consecutiveBackoffFails + 1
        bestOffset := some (retreatTo config cs (cs.currentOffset - candidateStep config cs))
        currentOffset := retreatTo config cs (cs.currentOffset - candidateStep config cs) } := by
  have hsame : (recordCrash config (backoffKnown cs)).backoffPassBound = none := hpass
  simp only [preconfirmFail, hsame]
  rfl

/-- A candidate that is proven, or at or past the baseline, leaves an earned best depth. -/
theorem earned_retreatTo (hdir : Directed.IsDirection config.direction) {candidate : Int}
    (hproves : atOrPastBaseline config candidate watch.core = true ∨
      watch.Proves config candidate) :
    config.depth (retreatTo config watch.core candidate) =
        config.depth watch.core.baselineOffset ∨
      watch.earned config (config.depth (retreatTo config watch.core candidate)) := by
  unfold retreatTo
  split
  · exact .inl rfl
  · next habove => exact .inr ((proves_iff hdir).mp (hproves.resolve_left habove))

/-- A FAIL of the first coarse slot. -/
theorem earned_coarseFail (hdir : Directed.IsDirection config.direction)
    (hearned : EarnedCore config watch) (hphase : watch.core.phase = .coarseSearch)
    (hbest : watch.core.bestOffset = none)
    (hproves : ProvesPeers config watch (.core (.verdict false))) :
    (trackOf config (advanceCore config watch.core false).core).Earned (watch.earned config) := by
  have hcandidate := hproves _ (backoffCandidate_coarse hphase hbest)
  obtain ⟨proven, hadvance⟩ := advanceCore_unguarded config watch.core
    (by simp [hphase]) (by simp [hphase]) (by simp [hphase, isBackoff]) false
  rw [hadvance, advancePhase, hphase]
  dsimp only
  rw [advanceCoarse_candidate hbest]
  refine ⟨?_, hearned.passBound⟩
  rintro best ⟨⟩
  exact earned_retreatTo hdir hcandidate

/-- A FAIL of a preconfirmation. -/
theorem earned_preconfirmFail (hdir : Directed.IsDirection config.direction)
    (hearned : EarnedCore config watch) (hphase : watch.core.phase = .backoffPreconfirm)
    (hproves : ProvesPeers config watch (.core (.verdict false))) :
    (trackOf config (advanceCore config watch.core false).core).Earned (watch.earned config) := by
  have hbackoff : isBackoff watch.core.phase = true := isBackoff_iff.mpr (.inl hphase)
  have hbacked : (trackOf config (recordCrash config (backoffKnown watch.core))).Earned
      (watch.earned config) := by
    rw [trackOf_backedOff hdir]
    exact hearned.backedOff
  rcases advanceCore_backoff_fail hdir hbackoff with ⟨-, hpause⟩ | ⟨-, hadvance⟩
  · rw [hpause]
    exact hbacked
  have hstep : backoffStepOf config (recordCrash config (backoffKnown watch.core)) false =
      preconfirmFail config (recordCrash config (backoffKnown watch.core)) := by
    simp [backoffStepOf, recordCrash, backoffKnown, hphase]
  rw [hadvance, hstep]
  cases hpass : (recordCrash config (backoffKnown watch.core)).backoffPassBound with
  | none =>
      have hnone : (recordCrash config watch.core).backoffPassBound = none := hpass
      have hcandidate := hproves _ (backoffCandidate_preconfirm hphase hnone)
      rw [preconfirmFail_candidate hnone]
      refine ⟨?_, hbacked.passBound⟩
      rintro best ⟨⟩
      exact earned_retreatTo hdir hcandidate
  | some passBound =>
      obtain ⟨failBound, hfail, -⟩ := recordCrash_backoffFailBound hdir (backoffKnown watch.core)
      have hbound : ∀ best, some (config.depth passBound) = some best →
          best = (trackOf config watch.core).baseline ∨ watch.earned config best := by
        rintro best ⟨⟩
        exact .inr (hbacked.passBound _ (by simp [trackOf, hpass]))
      rcases preconfirmFail_some hdir hpass hfail with hreturned | ⟨mid, -, hprobe⟩
      · rw [hreturned]
        exact ⟨hbound, hbacked.passBound⟩
      · rw [hprobe]
        exact ⟨hbound, hbacked.passBound⟩

theorem earned_fail (hvalid : config.Valid) (hearned : EarnedCore config watch)
    (hstepped : isStepped watch.core.phase = true)
    (hproves : ProvesPeers config watch (.core (.verdict false))) :
    (trackOf config (advanceCore config watch.core false).core).Earned (watch.earned config) := by
  have hdir := hvalid.direction
  have hfine := hvalid.fineStep_pos
  by_cases hpreconfirm : watch.core.phase = .backoffPreconfirm
  · exact earned_preconfirmFail hdir hearned hpreconfirm hproves
  by_cases hfirst : watch.core.phase = .coarseSearch ∧ watch.core.bestOffset = none
  · exact earned_coarseFail hdir hearned hfirst.1 hfirst.2 hproves
  · obtain ⟨paused, hfailed, -⟩ := advanceCore_failed hvalid hstepped
    refine hearned.failed (earned_downClosed watch) (by omega) hpreconfirm (fun hphase => ?_)
      hfailed
    simpa [trackOf] using not_and.mp hfirst hphase

/-! ## Runs -/

theorem mostAggressive_mem {offsets : List Int} {offset : Int}
    (hmost : mostAggressive config offsets = some offset) : offset ∈ offsets := by
  induction offsets generalizing offset with
  | nil => cases hmost
  | cons first rest ih =>
      rw [mostAggressive] at hmost
      split at hmost
      · cases hmost
        exact List.mem_cons_self
      · next best hbest =>
          split at hmost
          · cases hmost
            exact List.mem_cons_of_mem _ (ih hbest)
          · cases hmost
            exact List.mem_cons_self

/-- A rollback to the logged passes. -/
theorem earned_rollback {mostAggressivePass : Option Int}
    (hlogged : mostAggressivePass = mostAggressive config watch.passed) :
    config.depth (mostAggressivePass.getD watch.core.baselineOffset) =
        config.depth watch.core.baselineOffset ∨
      watch.earned config
        (config.depth (mostAggressivePass.getD watch.core.baselineOffset)) := by
  cases mostAggressivePass with
  | none => exact .inl rfl
  | some offset => exact .inr ⟨offset, mostAggressive_mem hlogged.symm, le_rfl⟩

/-- Whatever a step does, what was earned stays so. -/
theorem Track.Earned.mono {earned wider : Int → Prop} {track : Track}
    (hearned : track.Earned earned) (hwider : ∀ depth, earned depth → wider depth) :
    track.Earned wider :=
  ⟨fun best hbest => (hearned.best best hbest).imp_right (hwider best),
    fun bound hbound => hwider bound (hearned.passBound bound hbound)⟩

/-- A penalty that leaves a baseline deeper than it was found it past stock. -/
theorem past_stock_of_penaltyDepth (hvalid : config.Valid) {resident : Int} {steps : Option Int}
    (hsteps : PositiveSteps steps)
    (hle : config.depth resident ≤ config.depth watch.core.baselineOffset)
    (hback : config.depth watch.core.baselineOffset < penaltyDepth config resident steps) :
    config.isMoreAggressive 0 watch.core.baselineOffset = true := by
  have hstep := penaltyStep_pos hvalid hsteps
  rw [isMoreAggressive_iff hvalid.direction, depth_zero]
  simp only [penaltyDepth] at hback
  omega

/-- A penalty. -/
theorem earned_penalty (hvalid : config.Valid)
    (hearned : EarnedCore config watch) {resident : Int} {steps : Option Int} {countCrash : Bool}
    (hsteps : PositiveSteps steps)
    (hproves : ProvesPeers config watch (.core (.penalty resident steps countCrash))) :
    ((trackOf config watch.core).penalized (config.depth resident)
      (penaltyDepth config resident steps)).Earned (watch.earned config) := by
  have hdir := hvalid.direction
  refine hearned.penalized (earned_downClosed watch) fun htuned hle hbest hback => ?_
  refine (proves_iff hdir).mp (hproves (mt (depth_eq_zero hdir).mpr htuned) ?_
    (past_stock_of_penaltyDepth hvalid hsteps hle hback) ?_)
  · rw [atOrPastBaseline, atOrPast_iff hdir]
    exact hle
  · obtain ⟨best, hsome, hdepth⟩ := Option.map_eq_some_iff.mp hbest
    rw [hsome, (depth_inj hdir).mp hdepth]

theorem earned_step (hvalid : config.Valid) {event : PeerEvent}
    (hearned : EarnedCore config watch) (hproves : ProvesPeers config watch event)
    (hstep : (peerSystem config).step watch event = some next) : EarnedCore config next := by
  have hdir := hvalid.direction
  have hfine := hvalid.fineStep_pos
  have hdown := @earned_downClosed config watch
  cases event with
  | slotPassed offset =>
      cases Option.some.inj hstep
      -- A depth that was earned stays so: passes are only added.
      exact hearned.mono fun depth ⟨passed, hpassed, hle⟩ =>
        ⟨passed, List.mem_cons_of_mem _ hpassed, hle⟩
  | core event =>
      obtain ⟨hlogged, hmoved⟩ := Option.ite_none_right_eq_some.mp hstep
      obtain ⟨core, hcore, rfl⟩ := Option.map_eq_some_iff.mp hmoved
      have hmove := stepCore_track hvalid hcore
      cases event with
      | launch =>
          show (trackOf config core).Earned (watch.earned config)
          rw [hmove.2]
          split_ifs with hphase
          · exact ⟨hearned.best, hearned.passBound⟩
          · exact hearned.left hdown (by omega)
      | verdict passed =>
          cases passed with
          | true =>
              -- The pass itself earns its depth before the track moves.
              have hgrown : (trackOf config watch.core).Earned (PeerWatch.earned config
                  { core, passed := watch.core.currentOffset :: watch.passed }) :=
                hearned.mono fun depth ⟨passed, hpassed, hle⟩ => ⟨passed, List.mem_cons_of_mem _ hpassed, hle⟩
              exact hgrown.passed (earned_downClosed _) ⟨_, List.mem_cons_self, le_rfl⟩ hmove.2
          | false =>
              simp only [stepCore, Option.ite_none_right_eq_some, Option.some.injEq] at hcore
              obtain ⟨hstepped, rfl⟩ := hcore
              exact earned_fail hvalid hearned hstepped hproves
      | penalty resident steps countCrash =>
          show (trackOf config core).Earned (watch.earned config)
          rw [hmove.2]
          exact earned_penalty hvalid hearned hmove.1 hproves
      | anneal hours =>
          show (trackOf config core).Earned (watch.earned config)
          rw [hmove.2.2]
          exact ⟨hearned.best, hearned.passBound⟩
      | backOff =>
          show (trackOf config core).Earned (watch.earned config)
          rw [hmove.2.2]
          exact hearned.validationStep hdown (by omega)
      | reengage survived =>
          show (trackOf config core).Earned (watch.earned config)
          rw [show trackOf config core = _ from hmove]
          exact hearned.pulled hdown _
      | rollback mostAggressivePass =>
          show (trackOf config core).Earned (watch.earned config)
          rw [hmove.2]
          exact .rolledBack (earned_rollback hlogged)
      | revalidate =>
          obtain ⟨-, best, hbest, htrack⟩ := hmove
          show (trackOf config core).Earned (watch.earned config)
          rw [htrack]
          refine ⟨?_, hearned.passBound⟩
          rintro _ ⟨⟩
          exact hearned.best best hbest
      | account books =>
          show (trackOf config core).Earned (watch.earned config)
          rw [show trackOf config core = _ from hmove]
          exact hearned

theorem earned_start (hvalid : config.Valid) (hstart : (peerSystem config).Start watch) :
    EarnedCore config watch := by
  obtain ⟨⟨coreId, seed, readBack, hcore⟩, -⟩ := hstart
  obtain ⟨track, htrack, hbest, -, hpass, -⟩ := startCore_track hvalid coreId seed readBack
  rw [EarnedCore, hcore, htrack]
  exact ⟨by simp [hbest], by simp [hpass]⟩

/-! ## The steps that fail -/

/-- A candidate past the baseline becomes the best offset. -/
theorem bestOffset_of_candidate (hvalid : config.Valid) {candidate : Int}
    (hcandidate : backoffCandidate config cs = some candidate)
    (habove : atOrPastBaseline config candidate cs = false) :
    (advanceCore config cs false).core.bestOffset = some candidate ∧
      (advanceCore config cs false).core.baselineOffset = cs.baselineOffset := by
  have hdir := hvalid.direction
  have hfine := hvalid.fineStep_pos
  have hkept : retreatTo config cs candidate = candidate := by
    rw [retreatTo, if_neg (by simp [habove])]
  unfold backoffCandidate at hcandidate
  split at hcandidate
  · next hphase =>
      obtain ⟨hbest, hsame⟩ := Option.ite_none_right_eq_some.mp hcandidate
      rw [← Option.some.inj hsame] at hkept ⊢
      obtain ⟨proven, hadvance⟩ := advanceCore_unguarded config cs
        (by simp [hphase]) (by simp [hphase]) (by simp [hphase, isBackoff]) false
      rw [hadvance, advancePhase, hphase]
      dsimp only
      rw [advanceCoarse_candidate hbest]
      exact ⟨congrArg some hkept, rfl⟩
  · next hphase =>
      obtain ⟨hpass, hsame⟩ := Option.ite_none_right_eq_some.mp hcandidate
      have hstep := @fineStep_le_backoffStep config
        { cs with consecutiveBackoffFails := cs.consecutiveBackoffFails + 1 }
      rw [← Option.some.inj hsame] at hkept habove ⊢
      rw [atOrPastBaseline, Bool.eq_false_iff, ne_eq, atOrPast_iff hdir, depth_sub hdir,
        not_le] at habove
      rcases advanceCore_backoff_fail hdir (isBackoff_iff.mpr (.inl hphase)) with
        ⟨hle, -⟩ | ⟨-, hadvance⟩
      · omega
      · have hown : backoffStepOf config (recordCrash config (backoffKnown cs)) false =
            preconfirmFail config (recordCrash config (backoffKnown cs)) := by
          simp [backoffStepOf, recordCrash, backoffKnown, hphase]
        rw [hadvance, hown, preconfirmFail_candidate hpass]
        exact ⟨congrArg some hkept, rfl⟩
  · cases hcandidate

/-- A FAIL against the condition leaves an unproven offset. -/
theorem proves_of_peerProven_fail (hvalid : config.Valid)
    (hproven : PeerWatch.PeerProven config
      { core := (advanceCore config watch.core false).core, passed := watch.passed }) :
    ProvesPeers config watch (.core (.verdict false)) := by
  have hdir := hvalid.direction
  intro candidate hcandidate
  cases habove : atOrPastBaseline config candidate watch.core with
  | true => exact .inl rfl
  | false =>
      obtain ⟨hbest, hbase⟩ := bestOffset_of_candidate hvalid hcandidate habove
      right
      refine (proves_iff hdir).mpr
        (((peerProven_iff hdir).mp hproven candidate hbest).resolve_left fun hsame => ?_)
      have hsame' : candidate = watch.core.baselineOffset := hsame.trans hbase
      rw [atOrPastBaseline, Bool.eq_false_iff, ne_eq, atOrPast_iff hdir, hsame'] at habove
      exact habove le_rfl

/-- A penalty against the condition does. -/
theorem proves_of_peerProven_penalty (hvalid : config.Valid) {resident : Int}
    {steps : Option Int} {countCrash : Bool}
    (hproven : PeerWatch.PeerProven config
      { core := (penalizeResident config watch.core resident steps countCrash).core
        passed := watch.passed }) :
    ProvesPeers config watch (.core (.penalty resident steps countCrash)) := by
  have hdir := hvalid.direction
  intro htuned hpast hstock hbest
  rw [isMoreAggressive_iff hdir, depth_zero] at hstock
  rw [atOrPastBaseline, atOrPast_iff hdir] at hpast
  have htrack := @penalizeResident_track config watch.core hdir resident steps countCrash
  have hnonneg := penaltyDepth_nonneg config resident steps
  rw [Track.penalized, if_neg (mt (depth_eq_zero hdir).mp htuned)] at htrack
  have hlanding : (trackOf config watch.core).landing (config.depth resident)
      (penaltyDepth config resident steps) = penaltyDepth config resident steps := if_pos hpast
  have hbase := congrArg Track.baseline htrack
  have hnext := congrArg Track.best htrack
  rw [hlanding] at hnext
  simp only [trackOf, hbest, Option.map_some, Option.getD_some] at hbase hnext
  rw [if_pos hpast] at hbase
  rw [min_eq_left (by omega)] at hnext
  obtain ⟨best, hsome, hdepth⟩ := Option.map_eq_some_iff.mp hnext
  have hold : best = watch.core.baselineOffset := (depth_inj hdir).mp hdepth
  refine (proves_iff hdir).mpr ?_
  rw [← hold]
  refine ((peerProven_iff hdir).mp hproven best hsome).resolve_left fun hsame => ?_
  rw [← hsame] at hbase
  omega

/-- A step keeps every offset of a peer proven exactly when it meets the condition. -/
theorem peerProven_step_iff (hvalid : config.Valid) {event : PeerEvent}
    (hearned : EarnedCore config watch)
    (hstep : (peerSystem config).step watch event = some next) :
    next.PeerProven config ↔ ProvesPeers config watch event := by
  refine ⟨fun hproven => ?_, fun hproves =>
    peerProven_of_earned hvalid.direction (earned_step hvalid hearned hproves hstep)⟩
  cases event with
  | slotPassed offset => trivial
  | core event =>
      obtain ⟨-, hmoved⟩ := Option.ite_none_right_eq_some.mp hstep
      obtain ⟨core, hcore, rfl⟩ := Option.map_eq_some_iff.mp hmoved
      cases event with
      | verdict passed =>
          cases passed with
          | true => trivial
          | false =>
              simp only [stepCore, Option.ite_none_right_eq_some, Option.some.injEq] at hcore
              obtain ⟨-, rfl⟩ := hcore
              exact proves_of_peerProven_fail hvalid hproven
      | penalty resident steps countCrash =>
          simp only [stepCore, Option.ite_none_right_eq_some, Option.some.injEq] at hcore
          obtain ⟨-, rfl⟩ := hcore
          exact proves_of_peerProven_penalty hvalid hproven
      | launch | anneal _ | backOff | reengage _ | rollback _ | revalidate | account _ => trivial

/-- **Peers sit only at proven offsets** in sessions whose steps leave no untested offset as a
best one; and the first step that does breaks it. -/
theorem peers_at_proven_offsets (Core : Type*) [DecidableEq Core] (hvalid : config.Valid)
    {watches : Core → PeerWatch}
    (hreach : ((peerSystem config).indexed Core).ReachableBy
      (StepSystem.eachStep (ProvesPeers config)) watches) :
    (∀ core, (watches core).PeerProven config) ∧
      ∀ event after, ((peerSystem config).indexed Core).step watches event = some after →
        ((∀ core, (after core).PeerProven config) ↔
          StepSystem.eachStep (ProvesPeers config) watches event) := by
  have hearned : ∀ core, EarnedCore config (watches core) := fun core =>
    (hreach.component core).invariant (fun _ hstart => earned_start hvalid hstart)
      (fun _ _ _ hinv hproves hstep => earned_step hvalid hinv hproves hstep)
  have hproven := fun core => peerProven_of_earned hvalid.direction (hearned core)
  refine ⟨hproven, fun event after hstep => ?_⟩
  obtain ⟨moved, hmoved, rfl⟩ := Option.map_eq_some_iff.mp hstep
  rw [StepSystem.eachStep, ← peerProven_step_iff hvalid (hearned event.1) hmoved]
  constructor
  · intro hall
    have hown := hall event.1
    rwa [Function.update_self] at hown
  · intro hown core
    by_cases hsame : core = event.1
    · rw [hsame, Function.update_self]
      exact hown
    · rw [Function.update_of_ne hsame]
      exact hproven core

/-- The first coarse slot of one core fails, and the slot of the other is launched. -/
def candidateEvents : List (Bool × PeerEvent) :=
  [(false, .core .launch), (false, .core (.verdict false)), (true, .core .launch)]

/-- The first core sits at -4, without ever having passed, while the other is under test. -/
theorem peer_at_candidate :
    ∃ watches : Bool → PeerWatch, ((peerSystem {}).indexed Bool).Reachable watches ∧
      (watches true).core.phase = .coarseSearch ∧
      maskOffset (watches false).core .live = -4 ∧ ¬ (watches false).PeerProven {} := by
  have hstart : ((peerSystem {}).indexed Bool).Start
      fun _ => { core := startCore {} 0 none none } := fun _ => ⟨⟨0, none, none, rfl⟩, rfl⟩
  obtain ⟨watches, hreach, hview⟩ := StepSystem.exists_reachable
    (fun watches : Bool → PeerWatch => ((watches true).core.phase,
      maskOffset (watches false).core .live, decide ((watches false).PeerProven {})))
    (.coarseSearch, -4, false) candidateEvents hstart (by decide +kernel)
  simp only [Prod.mk.injEq, decide_eq_false_iff_not] at hview
  exact ⟨watches, hreach, hview⟩

/-- The first core passes at -5 and stays there for the other. -/
theorem peers_at_proven_offsets_passed :
    ∃ watches : Bool → PeerWatch,
      ((peerSystem {}).indexed Bool).ReachableBy (StepSystem.eachStep (ProvesPeers {})) watches ∧
        maskOffset (watches false).core .live = -5 ∧ (watches false).PeerProven {} := by
  have hstart : ((peerSystem {}).indexed Bool).Start
      fun _ => { core := startCore {} 0 none none } := fun _ => ⟨⟨0, none, none, rfl⟩, rfl⟩
  obtain ⟨watches, hreach, hmask⟩ := StepSystem.exists_reachableBy
    (StepSystem.eachStep (ProvesPeers {}))
    (fun watches : Bool → PeerWatch => maskOffset (watches false).core .live) (-5)
    [(false, .core .launch), (false, .core (.verdict true))] hstart
    (by simp [StepSystem.eachStep, ProvesPeers]) (by decide +kernel)
  exact ⟨watches, hreach, hmask,
    (peers_at_proven_offsets Bool (by decide +kernel) hreach).1 false⟩

end Tuner
end CoreCycler
