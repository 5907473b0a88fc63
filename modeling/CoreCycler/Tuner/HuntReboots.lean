import CoreCycler.Tuner.HuntDocument
import CoreCycler.Tuner.HuntLedger
import CoreCycler.Tuner.HuntVerdict

/-!
# A hunt over reboots

Every state of a hunt may have to be written to the session row, and the machine may
die before the next one is.  `Surviving` is what the operations on a hunt keep: the
search it represents, and the fields the search does not know (the level, the launch
count, the arming and the crash context).  A surviving hunt is persistable, so a run
interrupted by round trips through the row is the run without them.
-/

namespace CoreCycler
namespace Tuner
namespace Bisect

open Library Library.GroupTesting

/-! ## What the operations leave alone -/

/-- The crash context of a hunt: what no probe and no answer touches. -/
def HuntState.context (state : HuntState) :
    List CoreId × List CoreId × ℚ × Bool × List (CoreId × Int) × Option WorkloadEntry :=
  (state.candidates, state.loaded, state.observedFailureTime, state.armed, state.vector,
    state.workload)

theorem record_context (state : HuntState) (reproduced : Bool) (maxNoReproduce : Nat) :
    (record state reproduced maxNoReproduce).context = state.context := by
  unfold HuntState.context
  cases reproduced <;>
    simp only [record, recordWholeSet, Bool.false_eq_true, if_true, if_false] <;>
    split_ifs <;> rfl

theorem record_inFlight (state : HuntState) (reproduced : Bool) (maxNoReproduce : Nat) :
    (record state reproduced maxNoReproduce).inFlight = [] := by
  cases reproduced <;>
    simp only [record, recordWholeSet, Bool.false_eq_true, if_true, if_false] <;>
    split_ifs <;> rfl

theorem record_launchesDone (state : HuntState) (reproduced : Bool) (maxNoReproduce : Nat) :
    (record state reproduced maxNoReproduce).launchesDone = 0 := by
  cases reproduced <;>
    simp only [record, recordWholeSet, Bool.false_eq_true, if_true, if_false] <;>
    split_ifs <;> rfl

/-- An answer keeps the split under test or gives it up with its level. -/
theorem record_keeps_split (state : HuntState) (reproduced : Bool) (maxNoReproduce : Nat) :
    ((record state reproduced maxNoReproduce).parent = state.parent ∧
      (record state reproduced maxNoReproduce).level = state.level) ∨
    ((record state reproduced maxNoReproduce).parent = [] ∧
      (record state reproduced maxNoReproduce).level = 0) := by
  cases reproduced <;>
    simp only [record, recordWholeSet, Bool.false_eq_true, if_true, if_false] <;>
    split_ifs <;> simp

/-- No answer brings the lead probe back. -/
theorem record_stage_ne_lead (state : HuntState) (reproduced : Bool) (maxNoReproduce : Nat) :
    (record state reproduced maxNoReproduce).stage ≠ .lead := by
  cases reproduced <;>
    simp only [record, recordWholeSet, Bool.false_eq_true, if_true, if_false] <;>
    split_ifs <;> simp_all

/-- What a hunt looks like once the next probe is asked for. -/
theorem nextLiveSet_cases (state : HuntState) :
    (nextLiveSet state).2 = state ∨
    (state.stage = .lead ∧ (nextLiveSet state).2 =
      { state with inFlight := leadProbe state.candidates state.loaded }) ∨
    (∃ next rest, state.queue = next :: rest ∧ state.stage = .probe ∧
      (nextLiveSet state).2 = { state with queue := rest, inFlight := next }) ∨
    (state.stage = .probe ∧ state.inFlight = [] ∧ state.queue = [] ∧
      ∃ stage found, (stage = .culprit ∨ stage = .exhausted) ∧ (nextLiveSet state).2 =
        { state with pending := [], found := found, stage := stage }) ∨
    (state.stage = .probe ∧ ∃ target rest,
      (convictLone state.pending state.found).1 = target :: rest ∧
      (nextLiveSet state).2 =
        { state with
          pending := rest
          found := (convictLone state.pending state.found).2
          parent := target
          guiltyHalves := []
          level := min (bitLength (state.candidates.length - 1))
            (max 1 (bitLength (state.candidates.length - 1) - bitLength (target.length - 1) + 1))
          queue := [(split target).2]
          inFlight := (split target).1 }) := by
  unfold nextLiveSet
  simp only
  split
  · exact .inl rfl
  next hopen =>
  split
  · exact .inl rfl
  next hflight =>
  split
  next hlead => exact .inr (.inl ⟨hlead, rfl⟩)
  next hlead =>
  have hstage : state.stage = .probe := by
    cases hstage : state.stage <;> simp_all
  split
  next next rest hqueue => exact .inr (.inr (.inl ⟨next, rest, hqueue, hstage, rfl⟩))
  next hqueue =>
  split
  · refine .inr (.inr (.inr (.inl ⟨hstage, not_not.mp hflight, hqueue, _, _, ?_, rfl⟩)))
    split
    · exact .inl rfl
    · exact .inr rfl
  next target rest hpending =>
    exact .inr (.inr (.inr (.inr ⟨hstage, target, rest, hpending, rfl⟩)))

theorem nextLiveSet_context (state : HuntState) :
    (nextLiveSet state).2.context = state.context := by
  obtain hsame | ⟨-, hnext⟩ | ⟨_, _, -, -, hnext⟩ | ⟨-, -, -, _, _, -, hnext⟩ |
    ⟨-, _, _, -, hnext⟩ := nextLiveSet_cases state
  · rw [hsame]
  all_goals
    rw [hnext]
    rfl

theorem nextLiveSet_launchesDone (state : HuntState) :
    (nextLiveSet state).2.launchesDone = state.launchesDone := by
  obtain hsame | ⟨-, hnext⟩ | ⟨_, _, -, -, hnext⟩ | ⟨-, -, -, _, _, -, hnext⟩ |
    ⟨-, _, _, -, hnext⟩ := nextLiveSet_cases state
  · rw [hsame]
  all_goals rw [hnext]

/-! ## What every reachable hunt keeps -/

/-- The cross-field bookkeeping the search does not know: the level goes with the split
under test, a lead probe is the first of all, and a hunt that is over holds no split. -/
structure Kept (state : HuntState) : Prop where
  level_le : state.level ≤ bitLength (state.candidates.length - 1)
  level_zero : state.parent = [] → state.level = 0
  level_pos : state.parent ≠ [] → 1 ≤ state.level
  lead_fresh : state.stage = .lead →
    state.pending = [state.candidates] ∧ state.found = [] ∧ state.parent = []
  done_clear : state.stage = .culprit ∨ state.stage = .exhausted →
    state.parent = [] ∧ state.queue = []

/-- A hunt in the middle of the search `search`, with everything else a row needs. -/
structure Surviving (state : HuntState) (search : Search CoreId) : Prop where
  represents : Represents state search
  wellFormed : search.WellFormed maxInteger
  retries_le : search.retries ≤ maxInteger
  within : search.Within state.candidates
  ledger : ∃ root recorded, search.Ledger halving root recorded
  work : search.HasWork
  candidates_set : IsCoreSet state.candidates ∧ state.candidates ≠ []
  loaded_set : IsCoreSet state.loaded ∧ state.loaded ≠ []
  time_nonneg : 0 ≤ state.observedFailureTime
  vector_bounded : ∀ entry ∈ state.vector,
    entry.1 ≤ maxInteger ∧ minOffset ≤ entry.2 ∧ entry.2 ≤ maxInteger
  workload_sound : ∀ workload, state.workload = some workload →
    workloadErrors "workload" 0 workload = []
  armed_ready : state.armed = true → state.vector ≠ [] ∧ state.inFlight ≠ []
  launches_probe : state.launchesDone ≠ 0 → state.inFlight ≠ []
  launches_le : state.launchesDone ≤ maxInteger
  kept : Kept state

theorem IsCoreSet.of_sublist {cores part : List CoreId} (hcores : IsCoreSet cores)
    (hpart : part.Sublist cores) : IsCoreSet part :=
  ⟨fun core hcore => hcores.bounded core (hpart.subset hcore), hcores.ascending.sublist hpart⟩

section Persist

variable {state : HuntState} {search : Search CoreId}

/-- The groups the split under test is made of. -/
def HuntState.splitGroups (state : HuntState) : List (List CoreId) :=
  state.parent :: state.inFlight :: (state.queue ++ state.guiltyHalves)

/-- Outside the lead probe, whatever a hunt holds of a split belongs to the group the
search has open. -/
theorem Surviving.splitGroups_of_probe (hstate : Surviving state search)
    (hstage : state.stage ≠ .lead) {part : List CoreId} (hpart : part ∈ state.splitGroups) :
    part = [] ∨ ∃ group ∈ search.focusGroups, part.Sublist group := by
  have hshape := hstate.represents.shape
  have hdone := hstate.kept.done_clear
  obtain ⟨focus, pending, found, retries⟩ := search
  simp only [HuntState.splitGroups, List.mem_cons, List.mem_append] at hpart
  cases focus with
  | lead probe => exact absurd hshape.1 hstage
  | idle =>
      obtain ⟨-, hparent, hflight, hqueue, hguilty⟩ := hshape
      simp only [hparent, hflight, hqueue, hguilty, List.not_mem_nil, or_false, or_self] at hpart
      exact .inl hpart
  | left group =>
      obtain ⟨-, hparent, hflight, hqueue, hguilty⟩ := hshape
      refine .inr ⟨group, by simp [Search.focusGroups], ?_⟩
      simp only [hparent, hflight, hqueue, hguilty, List.mem_singleton, List.not_mem_nil,
        or_false] at hpart
      rcases hpart with rfl | rfl | rfl
      · exact List.Sublist.refl _
      · exact Search.split_fst_sublist halving group
      · exact Search.split_snd_sublist halving group
  | right group leftFailed =>
      obtain ⟨-, hparent, hopen, hguilty⟩ := hshape
      have hfst := Search.split_fst_sublist halving group
      have hsnd := Search.split_snd_sublist halving group
      refine Classical.or_iff_not_imp_left.mpr fun hne => ⟨group, by simp [Search.focusGroups], ?_⟩
      rcases hopen with ⟨hflight, hqueue⟩ | ⟨hflight, hqueue⟩
      · simp only [hparent, hflight, hqueue, hguilty, List.mem_ite_nil_right,
          List.mem_singleton, List.not_mem_nil, false_or] at hpart
        rcases hpart with rfl | rfl | ⟨-, rfl⟩
        · exact List.Sublist.refl _
        · exact hsnd
        · exact hfst
      · simp only [hparent, hflight, hqueue, hguilty, List.mem_ite_nil_right,
          List.mem_singleton, hne, false_or] at hpart
        rcases hpart with rfl | rfl | ⟨-, rfl⟩
        · exact List.Sublist.refl _
        · exact hsnd
        · exact hfst
  | whole group =>
      obtain ⟨-, hparent, hopen, hguilty⟩ := hshape
      refine Classical.or_iff_not_imp_left.mpr fun hne => ⟨group, by simp [Search.focusGroups], ?_⟩
      have heq : part = group := by
        rcases hopen with ⟨hflight, hqueue⟩ | ⟨hflight, hqueue⟩
        · simpa [hparent, hflight, hqueue, hguilty] using hpart
        · simpa [hparent, hflight, hqueue, hguilty, hne] using hpart
      exact heq ▸ List.Sublist.refl _
  | closed =>
      obtain ⟨hstage', hflight, hguilty⟩ := hshape
      obtain ⟨hparent, hqueue⟩ := hdone (by rw [hstage']; split <;> simp)
      simp only [hparent, hflight, hqueue, hguilty, List.not_mem_nil, or_false, or_self] at hpart
      exact .inl hpart

/-- The lead probe is the one loaded live core. -/
theorem Surviving.splitGroups_of_lead (hstate : Surviving state search)
    (hstage : state.stage = .lead) {part : List CoreId} (hpart : part ∈ state.splitGroups) :
    part = [] ∨ part.Sublist state.candidates := by
  have hshape := hstate.represents.shape
  have hlead := hstate.within.lead_sublist
  obtain ⟨focus, pending, found, retries⟩ := search
  cases focus with
  | lead probe =>
      obtain ⟨-, -, -, hflight, hparent, hqueue, hguilty⟩ := hshape
      simp only [HuntState.splitGroups, hparent, hqueue, hguilty, List.append_nil,
        List.mem_cons, List.not_mem_nil, or_false] at hpart
      rcases hpart with hnil | rfl
      · exact .inl hnil
      · refine hflight.imp_right fun heq => ?_
        rw [heq]
        exact hlead probe rfl
  | idle => exact absurd (hstage.symm.trans hshape.1) (by simp)
  | left group => exact absurd (hstage.symm.trans hshape.1) (by simp)
  | right group leftFailed => exact absurd (hstage.symm.trans hshape.1) (by simp)
  | whole group => exact absurd (hstage.symm.trans hshape.1) (by simp)
  | closed =>
      have hclosed : state.stage = if state.found ≠ [] then .culprit else .exhausted := hshape.1
      rw [hstage] at hclosed
      split at hclosed <;> cases hclosed

/-- Every group of the split under test is a part of the live cores. -/
theorem Surviving.splitGroups_sublist (hstate : Surviving state search) {part : List CoreId}
    (hpart : part ∈ state.splitGroups) : part.Sublist state.candidates := by
  by_cases hstage : state.stage = .lead
  · rcases hstate.splitGroups_of_lead hstage hpart with rfl | hsub
    · exact List.nil_sublist _
    · exact hsub
  · rcases hstate.splitGroups_of_probe hstage hpart with rfl | ⟨group, hgroup, hsub⟩
    · exact List.nil_sublist _
    · exact hsub.trans (hstate.within.focus_sublist group hgroup)

theorem Surviving.nodup (hstate : Surviving state search) :
    (search.found ++ search.focusGroups.flatten ++ search.pending.flatten).Nodup := by
  obtain ⟨root, recorded, hledger⟩ := hstate.ledger
  exact hledger.nodup

/-- No core is both convicted and still under test. -/
theorem Surviving.found_apart_split (hstate : Surviving state search) {core : CoreId}
    (hcore : core ∈ state.found) {part : List CoreId} (hpart : part ∈ state.splitGroups) :
    core ∉ part := by
  intro hmem
  by_cases hstage : state.stage = .lead
  · simp [(hstate.kept.lead_fresh hstage).2.1] at hcore
  · rcases hstate.splitGroups_of_probe hstage hpart with rfl | ⟨group, hgroup, hsub⟩
    · simp at hmem
    · have hfocus : core ∈ search.focusGroups.flatten :=
        List.mem_flatten.mpr ⟨group, hgroup, hsub.subset hmem⟩
      have hfound : core ∈ search.found := by
        rwa [hstate.represents.found_eq, mem_sorted] at hcore
      have hapart := (List.nodup_append.mp (List.nodup_append.mp hstate.nodup).1).2.2
      exact hapart core hfound core hfocus rfl

theorem Surviving.found_apart_pending (hstate : Surviving state search) {core : CoreId}
    (hcore : core ∈ state.found) {group : List CoreId} (hgroup : group ∈ state.pending) :
    core ∉ group := by
  intro hmem
  have hfound : core ∈ search.found := by
    rwa [hstate.represents.found_eq, mem_sorted] at hcore
  have hpending : core ∈ search.pending.flatten :=
    List.mem_flatten.mpr ⟨group, hstate.represents.pending_eq ▸ hgroup, hmem⟩
  have hapart := (List.nodup_append.mp hstate.nodup).2.2
  exact hapart core (List.mem_append_left _ hfound) core hpending rfl

/-- The work-list lies outside the split under test. -/
theorem Surviving.pending_apart_split (hstate : Surviving state search)
    (hstage : state.stage ≠ .lead) {group part : List CoreId} (hgroup : group ∈ state.pending)
    (hpart : part ∈ state.splitGroups) {core : CoreId} (hcore : core ∈ group) :
    core ∉ part := by
  intro hmem
  rcases hstate.splitGroups_of_probe hstage hpart with rfl | ⟨focus, hfocus, hsub⟩
  · simp at hmem
  · have hopen : core ∈ search.focusGroups.flatten :=
      List.mem_flatten.mpr ⟨focus, hfocus, hsub.subset hmem⟩
    have hpending : core ∈ search.pending.flatten :=
      List.mem_flatten.mpr ⟨group, hstate.represents.pending_eq ▸ hgroup, hcore⟩
    have hapart := (List.nodup_append.mp hstate.nodup).2.2
    exact hapart core (List.mem_append_right _ hopen) core hpending rfl

/-- At most one half waits and at most one is guilty, and neither is empty. -/
theorem Surviving.halves_few (hstate : Surviving state search) :
    state.queue.length ≤ 1 ∧ state.guiltyHalves.length ≤ 1 ∧
      ∀ half ∈ state.queue ++ state.guiltyHalves, half ≠ [] := by
  have hshape := hstate.represents.shape
  have htwo := hstate.wellFormed.focus_two
  have hdone := hstate.kept.done_clear
  obtain ⟨focus, pending, found, retries⟩ := search
  cases focus with
  | lead probe =>
      obtain ⟨-, -, -, -, -, hqueue, hguilty⟩ := hshape
      simp [hqueue, hguilty]
  | idle =>
      obtain ⟨-, -, -, hqueue, hguilty⟩ := hshape
      simp [hqueue, hguilty]
  | left group =>
      obtain ⟨-, -, -, hqueue, hguilty⟩ := hshape
      have hright := halving.right_ne_nil group (htwo group (by simp [Search.focusGroups]))
      simp only [halving_split] at hright
      simp [hqueue, hguilty, hright]
  | right group leftFailed =>
      obtain ⟨-, -, hopen, hguilty⟩ := hshape
      have hleft := halving.left_ne_nil group (htwo group (by simp [Search.focusGroups]))
      have hright := halving.right_ne_nil group (htwo group (by simp [Search.focusGroups]))
      simp only [halving_split] at hleft hright
      rcases hopen with ⟨-, hqueue⟩ | ⟨-, hqueue⟩ <;>
        cases leftFailed <;> simp [hqueue, hguilty, hleft, hright]
  | whole group =>
      obtain ⟨-, -, hopen, hguilty⟩ := hshape
      have hne : group ≠ [] :=
        List.ne_nil_of_length_pos (by have := htwo group (by simp [Search.focusGroups]); omega)
      rcases hopen with ⟨-, hqueue⟩ | ⟨-, hqueue⟩ <;> simp [hqueue, hguilty, hne]
  | closed =>
      obtain ⟨hstage, -, hguilty⟩ := hshape
      obtain ⟨-, hqueue⟩ := hdone (by rw [hstage]; split <;> simp)
      simp [hqueue, hguilty]

theorem pairwise_of_length_le_one {α : Type*} {relation : α → α → Prop} {items : List α}
    (hlen : items.length ≤ 1) : items.Pairwise relation := by
  cases items with
  | nil => exact .nil
  | cons item rest =>
      obtain rfl : rest = [] := List.length_eq_zero_iff.mp (by simpa using hlen)
      exact List.pairwise_singleton _ _

/-- The split under test of a probing hunt passes the validator. -/
theorem Surviving.splitFits (hstate : Surviving state search) (hstage : state.stage = .probe)
    (hparent : state.parent ≠ []) : SplitFits state state.activeHalves := by
  have hshape := hstate.represents.shape
  have htwo := hstate.wellFormed.focus_two
  have hlevel := hstate.kept.level_pos hparent
  have houtside : ∀ group ∈ state.pending, ∀ core ∈ group, core ∉ state.parent := by
    intro group hgroup core hcore
    have hopen : state.stage ≠ .lead := by simp [hstage]
    exact hstate.pending_apart_split hopen hgroup (by simp [HuntState.splitGroups]) hcore
  -- At most one half waits in the queue, so the check of two halves is never made.
  have hone : ∀ first second, state.queue ≠ [first, second] := by
    intro first second heq
    have hlen := hstate.halves_few.1
    simp [heq] at hlen
  have hnodup : ∀ group ∈ search.focusGroups, (split group).1.Disjoint (split group).2 := by
    intro group hgroup
    have hgroupNodup : group.Nodup :=
      (List.nodup_flatten.mp (List.nodup_append.mp (List.nodup_append.mp hstate.nodup).1).2.1).1
        group hgroup
    rw [← halving.append_eq group] at hgroupNodup
    intro core hfst hsnd
    exact (List.nodup_append.mp hgroupNodup).2.2 core hfst core hsnd rfl
  -- Each focus has its own halves open, all of them parts of the group that was split.
  obtain ⟨focus, pending, found, retries⟩ := search
  have hfits : ∀ group : List CoreId, state.parent = group → 2 ≤ group.length →
      (∀ half ∈ state.activeHalves, half ⊆ group) →
      state.activeHalves.Pairwise List.Disjoint → SplitFits state state.activeHalves := by
    intro group heq hlen hsub hapart
    refine ⟨heq ▸ hlen, hlevel, heq ▸ hsub, hapart, houtside, ?_⟩
    intro first second hqueue
    exact absurd hqueue (hone first second)
  have hfst : ∀ group : List CoreId, (split group).1 ⊆ group := fun group =>
    (Search.split_fst_sublist halving group).subset
  have hsnd : ∀ group : List CoreId, (split group).2 ⊆ group := fun group =>
    (Search.split_snd_sublist halving group).subset
  cases focus with
  | lead probe => exact absurd (hstage.symm.trans hshape.1) (by simp)
  | idle => exact absurd hshape.2.1 hparent
  | left group =>
      obtain ⟨-, hgroup, hflight, hqueue, hguilty⟩ := hshape
      have hlen := htwo group (by simp [Search.focusGroups])
      have hapart := hnodup group (by simp [Search.focusGroups])
      have hne : (split group).1 ≠ [] := halving.left_ne_nil group hlen
      have hhalves : state.activeHalves = [(split group).2, (split group).1] := by
        simp [HuntState.activeHalves, hqueue, hguilty, hflight, hne]
      apply hfits group hgroup hlen
      · simp [hhalves, hfst, hsnd]
      · simpa [hhalves] using hapart.symm
  | right group leftFailed =>
      obtain ⟨-, hgroup, hopen, hguilty⟩ := hshape
      have hlen := htwo group (by simp [Search.focusGroups])
      have hapart := hnodup group (by simp [Search.focusGroups])
      have hne : (split group).2 ≠ [] := halving.right_ne_nil group hlen
      have hhalves : state.activeHalves = (if leftFailed then [(split group).1] else []) ++
            [(split group).2] ∨
          state.activeHalves = [(split group).2] ++
            (if leftFailed then [(split group).1] else []) := by
        -- The second half is in flight, or it waits in the queue.
        rcases hopen with ⟨hflight, hqueue⟩ | ⟨hflight, hqueue⟩
        · exact .inl (by simp [HuntState.activeHalves, hqueue, hguilty, hflight, hne])
        · exact .inr (by simp [HuntState.activeHalves, hqueue, hguilty, hflight])
      apply hfits group hgroup hlen
      · rcases hhalves with heq | heq <;> rw [heq] <;> cases leftFailed <;> simp [hfst, hsnd]
      · rcases hhalves with heq | heq <;> rw [heq] <;> cases leftFailed <;>
          simp [hapart, hapart.symm]
  | whole group =>
      obtain ⟨-, hgroup, hopen, hguilty⟩ := hshape
      have hlen := htwo group (by simp [Search.focusGroups])
      have hne : group ≠ [] := List.ne_nil_of_length_pos (by omega)
      have hhalves : state.activeHalves = [group] := by
        rcases hopen with ⟨hflight, hqueue⟩ | ⟨hflight, hqueue⟩
        · simp [HuntState.activeHalves, hqueue, hguilty, hflight, hne]
        · simp [HuntState.activeHalves, hqueue, hguilty, hflight]
      apply hfits group hgroup hlen <;> simp [hhalves]
  | closed =>
      have hclosed : state.stage = if state.found ≠ [] then .culprit else .exhausted := hshape.1
      rw [hstage] at hclosed
      split at hclosed <;> cases hclosed

/-- What the stage asks holds of every surviving hunt. -/
theorem Surviving.stageFits (hstate : Surviving state search) : StageFits state := by
  have hparentFits : state.stage = .probe → state.parent ≠ [] →
      SplitFits state state.activeHalves := hstate.splitFits
  have hfew := hstate.halves_few
  have hfresh := hstate.kept.lead_fresh
  have hclear := hstate.kept.done_clear
  have hzero := hstate.kept.level_zero
  have htwo := hstate.wellFormed.focus_two
  have hleadRetries := hstate.wellFormed.lead_retries
  have hretries := hstate.represents.retries_eq
  have hpending := hstate.represents.pending_eq
  have hclosedPending := hstate.wellFormed.closed_pending
  have hwork := hstate.work
  have hshape := hstate.represents.shape
  obtain ⟨focus, pending, found, retries⟩ := search
  cases focus with
  | lead probe =>
      obtain ⟨hstage, hprobe, hlone, hflight, hparent, hqueue, hguilty⟩ := hshape
      obtain ⟨hall, hnone, -⟩ := hfresh hstage
      have hne : leadProbe state.candidates state.loaded ≠ [] :=
        List.ne_nil_of_length_pos (by rw [← hprobe, hlone]; exact Nat.one_pos)
      simp only [StageFits, hstage]
      exact ⟨hne, hall, hprobe ▸ hflight, hqueue, hguilty, hparent, hnone, hzero hparent,
        hretries.trans (hleadRetries probe rfl)⟩
  | idle =>
      obtain ⟨hstage, hparent, hflight, hqueue, hguilty⟩ := hshape
      have hleft : pending ≠ [] := hwork (.inl rfl)
      simp only [StageFits, hstage]
      exact ⟨by simp [hqueue, hguilty], hparentFits hstage, fun _ =>
        ⟨hqueue, hguilty, hflight, hzero hparent⟩, .inl (hpending ▸ hleft)⟩
  | left group =>
      have hlen := htwo group (by simp [Search.focusGroups])
      obtain ⟨hstage, hparent, -, hqueue, -⟩ := hshape
      have hne : state.parent ≠ [] := List.ne_nil_of_length_pos (by rw [hparent]; omega)
      simp only [StageFits, hstage]
      exact ⟨⟨by omega, by omega⟩, hparentFits hstage, fun hnil => absurd hnil hne,
        .inr (.inl (by simp [hqueue]))⟩
  | right group leftFailed =>
      have hlen := htwo group (by simp [Search.focusGroups])
      have hright : (split group).2 ≠ [] := halving.right_ne_nil group hlen
      obtain ⟨hstage, hparent, hopen, -⟩ := hshape
      have hne : state.parent ≠ [] := List.ne_nil_of_length_pos (by rw [hparent]; omega)
      simp only [StageFits, hstage]
      refine ⟨⟨by omega, by omega⟩, hparentFits hstage, fun hnil => absurd hnil hne, .inr ?_⟩
      rcases hopen with ⟨hflight, -⟩ | ⟨-, hqueue⟩
      · exact .inr (hflight ▸ hright)
      · exact .inl (by simp [hqueue])
  | whole group =>
      have hlen := htwo group (by simp [Search.focusGroups])
      obtain ⟨hstage, hparent, hopen, -⟩ := hshape
      have hne : state.parent ≠ [] := List.ne_nil_of_length_pos (by rw [hparent]; omega)
      simp only [StageFits, hstage]
      refine ⟨⟨by omega, by omega⟩, hparentFits hstage, fun hnil => absurd hnil hne, .inr ?_⟩
      rcases hopen with ⟨hflight, -⟩ | ⟨-, hqueue⟩
      · exact .inr (hflight ▸ hparent ▸ hne)
      · exact .inl (by simp [hqueue])
  | closed =>
      obtain ⟨hstage, hflight, hguilty⟩ := hshape
      have hnone : state.pending = [] := hpending.trans (hclosedPending rfl)
      by_cases hfound : state.found = []
      · rw [if_neg (by simpa using hfound)] at hstage
        obtain ⟨hparent, hqueue⟩ := hclear (.inr hstage)
        simp only [StageFits, hstage]
        exact ⟨hnone, hqueue, hflight, hparent, hguilty⟩
      · rw [if_pos hfound] at hstage
        obtain ⟨hparent, hqueue⟩ := hclear (.inl hstage)
        simp only [StageFits, hstage]
        exact ⟨hfound, hnone, hqueue, hflight, hparent, hguilty⟩

theorem bitLength_le (n : Nat) : bitLength n ≤ n := by
  unfold bitLength
  split
  · exact Nat.zero_le n
  · next hne =>
    have hlog : Nat.log2 n < n := (Nat.log2_lt hne).mpr Nat.lt_two_pow_self
    omega

theorem IsCoreSet.length_le {cores : List CoreId} (hcores : IsCoreSet cores) :
    cores.length ≤ maxInteger + 1 := by
  have hnodup : cores.Nodup := hcores.ascending.imp ne_of_lt
  have hsub : cores.toFinset ⊆ Finset.range (maxInteger + 1) := by
    intro core hcore
    rw [Finset.mem_range]
    exact Nat.lt_succ_of_le (hcores.bounded core (by simpa using hcore))
  rw [← List.toFinset_card_of_nodup hnodup, ← Finset.card_range (maxInteger + 1)]
  exact Finset.card_le_card hsub

/-- **A surviving hunt can be written down.** -/
theorem Surviving.persistable (hstate : Surviving state search) : Persistable state := by
  have hcoreSet : ∀ {part : List CoreId}, part ∈ state.splitGroups → IsCoreSet part :=
    fun hpart => hstate.candidates_set.1.of_sublist (hstate.splitGroups_sublist hpart)
  have hhalf : ∀ {half : List CoreId}, half ∈ state.queue ++ state.guiltyHalves →
      half ∈ state.splitGroups := fun hhalf =>
    List.mem_cons_of_mem _ (List.mem_cons_of_mem _ hhalf)
  have hpendingSub : ∀ group ∈ state.pending, group.Sublist state.candidates := fun group hgroup =>
    hstate.within.pending_sublist group (hstate.represents.pending_eq ▸ hgroup)
  have hfound : state.found = sorted search.found := hstate.represents.found_eq
  have hfoundSub : state.found ⊆ state.candidates := by
    intro core hcore
    exact hstate.within.found_subset (by rwa [hfound, mem_sorted] at hcore)
  obtain ⟨hqueueFew, hguiltyFew, hne⟩ := hstate.halves_few
  have hnodup := hstate.nodup
  have hpendingNodup : state.pending.flatten.Nodup :=
    hstate.represents.pending_eq ▸ (List.nodup_append.mp hnodup).2.1
  constructor
  case candidates_set => exact hstate.candidates_set
  -- The groups of the document are parts of the candidates, each in ascending order.
  case pending_sets =>
    intro group hgroup
    exact ⟨hstate.candidates_set.1.of_sublist (hpendingSub group hgroup),
      hstate.wellFormed.pending_ne_nil group (hstate.represents.pending_eq ▸ hgroup)⟩
  case queue_sets =>
    intro group hgroup
    have hmem := List.mem_append_left state.guiltyHalves hgroup
    exact ⟨hcoreSet (hhalf hmem), hne group hmem⟩
  case guilty_sets =>
    intro group hgroup
    have hmem := List.mem_append_right state.queue hgroup
    exact ⟨hcoreSet (hhalf hmem), hne group hmem⟩
  case inFlight_set => exact hcoreSet (by simp [HuntState.splitGroups])
  case parent_set => exact hcoreSet (by simp [HuntState.splitGroups])
  case found_set =>
    have hfoundNodup : state.found.Nodup := by
      rw [hfound, (sorted_perm _).nodup_iff]
      exact (List.nodup_append.mp (List.nodup_append.mp hnodup).1).1
    refine ⟨fun core hcore => hstate.candidates_set.1.bounded core (hfoundSub hcore), ?_⟩
    have hpairs := (hfound ▸ sorted_pairwise search.found).and hfoundNodup
    exact hpairs.imp fun hboth => lt_of_le_of_ne hboth.1 hboth.2
  case loaded_set => exact hstate.loaded_set
  -- The level counts splits, and a group of this size can be split so often and no more.
  case level_le =>
    have hlen := hstate.candidates_set.1.length_le
    have hdepth := bitLength_le (state.candidates.length - 1)
    exact hstate.kept.level_le.trans (hdepth.trans (by omega))
  case noReproduce_le => exact hstate.represents.retries_eq ▸ hstate.retries_le
  case launchesDone_le => exact hstate.launches_le
  case time_nonneg => exact hstate.time_nonneg
  case vector_bounded => exact hstate.vector_bounded
  case armed_ready => exact hstate.armed_ready
  case workload_sound => exact hstate.workload_sound
  case pending_apart => exact (List.nodup_flatten.mp hpendingNodup).2
  case queue_apart => exact pairwise_of_length_le_one hqueueFew
  case guilty_apart => exact pairwise_of_length_le_one hguiltyFew
  case groups_sub =>
    intro group hgroup
    rw [List.append_assoc] at hgroup
    rcases List.mem_append.mp hgroup with hpending | hhalves
    · exact (hpendingSub group hpending).subset
    · exact (hstate.splitGroups_sublist (hhalf hhalves)).subset
  case active_sub =>
    apply List.append_subset.mpr
    exact ⟨(hstate.splitGroups_sublist (by simp [HuntState.splitGroups])).subset,
      (hstate.splitGroups_sublist (by simp [HuntState.splitGroups])).subset⟩
  case found_apart =>
    intro core hcore hmem
    rw [List.append_assoc, List.mem_append, List.mem_append, List.mem_flatten] at hmem
    obtain hflight | hparent | ⟨group, hgroup, hmem⟩ := hmem
    · exact hstate.found_apart_split hcore (by simp [HuntState.splitGroups]) hflight
    · exact hstate.found_apart_split hcore (by simp [HuntState.splitGroups]) hparent
    · rw [List.append_assoc] at hgroup
      rcases List.mem_append.mp hgroup with hpending | hhalves
      · exact hstate.found_apart_pending hcore hpending hmem
      · exact hstate.found_apart_split hcore (hhalf hhalves) hmem
  case found_sub => exact hfoundSub
  case depth => exact hstate.kept.level_le
  case launches_probe => exact hstate.launches_probe
  case stage_fits => exact hstate.stageFits

end Persist

/-! ## The operations keep it -/

section Steps

variable {state : HuntState} {search : Search CoreId}

theorem surviving_opened {candidates loaded : List CoreId} {observedFailureTime : ℚ}
    (hbegin : begin candidates loaded observedFailureTime = .ok state) :
    Surviving state (openedSearch candidates loaded) := by
  obtain ⟨hcandidates, hloaded, htime, rfl⟩ := begin_eq_ok_iff.mp hbegin
  have hset : ∀ {cores : List CoreId}, Admissible cores →
      IsCoreSet (sorted cores) ∧ sorted cores ≠ [] := by
    rintro cores ⟨hne, hnodup, hbound⟩
    refine ⟨⟨by simpa using hbound, ?_⟩, by simpa using hne⟩
    exact ascending_of_eq_sortedSet (sortedSet_sorted hnodup).symm
  constructor
  case represents => exact represents_opened candidates loaded observedFailureTime
  case wellFormed => exact wellFormed_opened hcandidates.1 loaded maxInteger
  case retries_le => exact Nat.zero_le maxInteger
  case within => exact within_opened candidates loaded
  case ledger => exact ⟨sorted candidates, [], ledger_opened hcandidates.2.1 loaded⟩
  case work =>
    intro _
    simp [openedSearch]
  case candidates_set => exact hset hcandidates
  case loaded_set => exact hset hloaded
  case time_nonneg => exact htime
  case kept =>
    exact ⟨Nat.zero_le _, fun _ => rfl, fun hne => absurd rfl hne, fun _ => ⟨rfl, rfl, rfl⟩,
      fun _ => ⟨rfl, rfl⟩⟩
  all_goals simp [opened]

/-- The fields of the crash context stay as they are. -/
theorem context_eq {first second : HuntState} (heq : first.context = second.context) :
    first.candidates = second.candidates ∧ first.loaded = second.loaded ∧
      first.observedFailureTime = second.observedFailureTime ∧ first.armed = second.armed ∧
      first.vector = second.vector ∧ first.workload = second.workload := by
  simpa [HuntState.context] using heq

/-- A probing hunt with nothing in flight and nothing queued holds no split. -/
theorem Surviving.parent_eq_nil (hstate : Surviving state search) (hstage : state.stage = .probe)
    (hflight : state.inFlight = []) (hqueue : state.queue = []) : state.parent = [] := by
  have hfits := hstate.stageFits
  have htwo := hstate.wellFormed.focus_two
  have hshape := hstate.represents.shape
  obtain ⟨focus, pending, found, retries⟩ := search
  cases focus with
  | lead probe => exact hshape.2.2.2.2.1
  | idle => exact hshape.2.1
  | left group => exact absurd (hshape.2.2.2.1.symm.trans hqueue) (by simp)
  | right group leftFailed =>
      have hright : (split group).2 ≠ [] :=
        halving.right_ne_nil group (htwo group (by simp [Search.focusGroups]))
      rcases hshape.2.2.1 with ⟨hhalf, -⟩ | ⟨-, hhalf⟩
      · exact absurd (hhalf.symm.trans hflight) hright
      · simp [hqueue] at hhalf
  | whole group =>
      have hlen := htwo group (by simp [Search.focusGroups])
      rcases hshape.2.2.1 with ⟨hwhole, -⟩ | ⟨-, hwhole⟩
      · rw [hflight] at hwhole
        simp [← hwhole] at hlen
      · simp [hqueue] at hwhole
  | closed =>
      have hclosed : state.stage = if state.found ≠ [] then .culprit else .exhausted := hshape.1
      rw [hstage] at hclosed
      split at hclosed <;> cases hclosed

theorem Surviving.kept_ask (hstate : Surviving state search) : Kept (nextLiveSet state).2 := by
  obtain ⟨hle, hzero, hpos, hfresh, hclear⟩ := hstate.kept
  obtain hsame | ⟨hlead, hcase⟩ | ⟨next, rest, hqueue, hprobe, hcase⟩ |
    ⟨hprobe, hflight, hqueue, stage, found, hdone, hcase⟩ |
    ⟨hprobe, target, rest, hconvict, hcase⟩ := nextLiveSet_cases state
  · rw [hsame]
    exact hstate.kept
  · rw [hcase]
    exact ⟨hle, hzero, hpos, hfresh, hclear⟩
  · rw [hcase]
    refine ⟨hle, hzero, hpos, hfresh, ?_⟩
    intro hdone
    simp [hprobe] at hdone
  · rw [hcase]
    have hparent := hstate.parent_eq_nil hprobe hflight hqueue
    refine ⟨hle, hzero, hpos, ?_, fun _ => ⟨hparent, hqueue⟩⟩
    rintro rfl
    rcases hdone with hdone | hdone <;> cases hdone
  · have hdrop : dropLone search.pending = target :: rest := by
      rwa [hstate.represents.found_eq, convictLone_eq, hstate.represents.pending_eq] at hconvict
    have htwo : 2 ≤ target.length :=
      Search.two_le_length_of_dropLone hstate.wellFormed.pending_ne_nil hdrop
    have hsub : target.Sublist state.candidates := by
      apply hstate.within.pending_sublist
      apply Search.dropLone_subset
      rw [hdrop]
      exact List.mem_cons_self
    have hdeep : 1 ≤ bitLength (state.candidates.length - 1) := by
      have hlen := hsub.length_le
      unfold bitLength
      rw [if_neg (by omega)]
      omega
    have hne : target ≠ [] := List.ne_nil_of_length_pos (by omega)
    rw [hcase]
    refine ⟨Nat.min_le_left _ _, fun hnil => absurd hnil hne, ?_, ?_, ?_⟩
    · intro _
      show 1 ≤ min (bitLength (state.candidates.length - 1)) (max 1 _)
      omega
    · intro hlead
      simp [hprobe] at hlead
    · intro hdone
      simp [hprobe] at hdone

/-- `nextLiveSet` keeps a hunt surviving. -/
theorem Surviving.ask (hstate : Surviving state search) :
    Surviving (nextLiveSet state).2 search.ask := by
  obtain ⟨hanswer, hnext, hflight⟩ := hstate.represents.nextLiveSet hstate.wellFormed
  obtain ⟨hcandidates, hloaded, htime, harmed, hvector, hworkload⟩ :=
    context_eq (nextLiveSet_context state)
  have hlaunches := nextLiveSet_launchesDone state
  have hkeepsProbe : state.inFlight ≠ [] → (nextLiveSet state).2.inFlight ≠ [] := by
    intro hne
    by_cases hdone : state.stage = .culprit ∨ state.stage = .exhausted
    · rwa [nextLiveSet_of_done hdone]
    · rwa [nextLiveSet_of_inFlight (by cases h : state.stage <;> simp_all) hne]
  obtain ⟨root, recorded, hledger⟩ := hstate.ledger
  constructor
  case represents => exact hnext
  case wellFormed => exact hstate.wellFormed.ask (by decide)
  case retries_le =>
    rw [Search.retries_ask]
    exact hstate.retries_le
  case within => exact hcandidates ▸ hstate.within.ask
  case ledger => exact ⟨root, recorded, hledger.ask⟩
  case work => exact hstate.work.ask
  case candidates_set => exact hcandidates ▸ hstate.candidates_set
  case loaded_set => exact hloaded ▸ hstate.loaded_set
  case time_nonneg => exact htime ▸ hstate.time_nonneg
  case vector_bounded => exact hvector ▸ hstate.vector_bounded
  case workload_sound => exact hworkload ▸ hstate.workload_sound
  case armed_ready =>
    intro hset
    rw [harmed] at hset
    obtain ⟨hne, hprobe⟩ := hstate.armed_ready hset
    exact ⟨hvector ▸ hne, hkeepsProbe hprobe⟩
  case launches_probe => exact fun hne => hkeepsProbe (hstate.launches_probe (hlaunches ▸ hne))
  case launches_le => exact hlaunches ▸ hstate.launches_le
  case kept => exact hstate.kept_ask

/-- A whole set in flight has nothing queued behind it. -/
theorem Surviving.queue_of_whole (hstate : Surviving state search)
    (hflight : state.inFlight ≠ []) (hwhole : state.inFlight = state.parent) :
    state.queue = [] := by
  have htwo := hstate.wellFormed.focus_two
  have hshape := hstate.represents.shape
  obtain ⟨focus, pending, found, retries⟩ := search
  cases focus with
  | lead probe => exact hshape.2.2.2.2.2.1
  | idle => exact absurd hshape.2.2.1 hflight
  | left group =>
      obtain ⟨-, hparent, hhalf, -⟩ := hshape
      rw [hhalf, hparent] at hwhole
      exact absurd hwhole (split_fst_ne (htwo group (by simp [Search.focusGroups])))
  | right group leftFailed =>
      obtain ⟨-, hparent, ⟨hhalf, hqueue⟩ | ⟨hnone, -⟩, -⟩ := hshape
      · rw [hhalf, hparent] at hwhole
        exact absurd hwhole (split_snd_ne (htwo group (by simp [Search.focusGroups])))
      · exact absurd hnone hflight
  | whole group =>
      obtain ⟨-, -, ⟨-, hqueue⟩ | ⟨hnone, -⟩, -⟩ := hshape
      · exact hqueue
      · exact absurd hnone hflight
  | closed => exact absurd hshape.2.1 hflight

/-- Only a hunt that still asks has a mask in flight. -/
theorem Surviving.open_of_inFlight (hstate : Surviving state search)
    (hflight : state.inFlight ≠ []) : state.stage = .lead ∨ state.stage = .probe := by
  have hfits := hstate.stageFits
  cases hstage : state.stage with
  | lead => exact .inl rfl
  | probe => exact .inr rfl
  | culprit =>
      simp only [StageFits, hstage] at hfits
      exact absurd hfits.2.2.2.1 hflight
  | exhausted =>
      simp only [StageFits, hstage] at hfits
      exact absurd hfits.2.2.1 hflight

theorem Surviving.kept_answer (hstate : Surviving state search) (hflight : state.inFlight ≠ [])
    (reproduced : Bool) (maxNoReproduce : Nat) :
    Kept (record state reproduced maxNoReproduce) := by
  obtain ⟨hle, hzero, hpos, hfresh, hclear⟩ := hstate.kept
  obtain ⟨hcandidates, -⟩ := context_eq (record_context state reproduced maxNoReproduce)
  have hsplit := record_keeps_split state reproduced maxNoReproduce
  constructor
  case level_le =>
    rw [hcandidates]
    rcases hsplit with ⟨-, hlevel⟩ | ⟨-, hlevel⟩
    · rwa [hlevel]
    · rw [hlevel]
      exact Nat.zero_le _
  case level_zero =>
    rcases hsplit with ⟨hparent, hlevel⟩ | ⟨-, hlevel⟩
    · rwa [hparent, hlevel]
    · exact fun _ => hlevel
  case level_pos =>
    rcases hsplit with ⟨hparent, hlevel⟩ | ⟨hparent, -⟩
    · rwa [hparent, hlevel]
    · exact fun hne => absurd hparent hne
  case lead_fresh => exact fun hlead => absurd hlead (record_stage_ne_lead state _ _)
  case done_clear =>
    intro hdone
    rcases hstate.open_of_inFlight hflight with hstage | hstage
    · have hparent := (hfresh hstage).2.2
      have hfits := hstate.stageFits
      simp only [StageFits, hstage] at hfits
      rw [record_of_lead hstage]
      split
      · exact ⟨hparent, hfits.2.2.2.1⟩
      · exact ⟨hparent, hfits.2.2.2.1⟩
    · by_cases hwhole : state.inFlight = state.parent
      · have hqueue := hstate.queue_of_whole hflight hwhole
        rw [record_of_whole hstage hwhole, recordWholeSet]
        split
        · exact ⟨rfl, hqueue⟩
        · exact ⟨rfl, hqueue⟩
      · -- A half's answer never ends the hunt.
        have hprobe : (record state reproduced maxNoReproduce).stage = .probe := by
          by_cases hqueue : state.queue = []
          · by_cases hguilty : (noteHalf state reproduced).guiltyHalves = []
            · rw [record_of_clean hstage hwhole hqueue hguilty]
              split <;> exact hstage
            · rw [record_of_guilty hstage hwhole hqueue hguilty]
              exact hstage
          · rw [record_of_queue hstage hwhole hqueue]
            exact hstage
        simp [hprobe] at hdone

/-- `record` keeps a hunt surviving when it answers a disarmed probe in flight. -/
theorem Surviving.answer (hstate : Surviving state search) (hflight : state.inFlight ≠ [])
    (harmed : state.armed = false) {maxNoReproduce : Nat} (hle : maxNoReproduce ≤ maxInteger)
    (reproduced : Bool) :
    Surviving (record state reproduced maxNoReproduce)
      (search.answer halving maxNoReproduce reproduced) := by
  obtain ⟨hcandidates, hloaded, htime, hstill, hvector, hworkload⟩ :=
    context_eq (record_context state reproduced maxNoReproduce)
  have hlaunches := record_launchesDone state reproduced maxNoReproduce
  have hquestion := hstate.represents.question_of_inFlight hflight
  obtain ⟨root, recorded, hledger⟩ := hstate.ledger
  constructor
  case represents =>
    exact hstate.represents.record_of_wellFormed hstate.wellFormed hquestion rfl reproduced
  case wellFormed => exact hstate.wellFormed.answer_of_le hle reproduced
  case retries_le => exact hstate.wellFormed.retries_answer_le hstate.retries_le reproduced
  case within => exact hcandidates ▸ hstate.within.answer halving maxNoReproduce reproduced
  case ledger => exact ⟨root, _, hledger.answer maxNoReproduce reproduced⟩
  case work => exact hstate.work.answer halving maxNoReproduce reproduced
  case candidates_set => exact hcandidates ▸ hstate.candidates_set
  case loaded_set => exact hloaded ▸ hstate.loaded_set
  case time_nonneg => exact htime ▸ hstate.time_nonneg
  case vector_bounded => exact hvector ▸ hstate.vector_bounded
  case workload_sound => exact hworkload ▸ hstate.workload_sound
  case armed_ready =>
    intro hset
    rw [hstill, harmed] at hset
    cases hset
  case launches_probe => exact fun hne => absurd hlaunches hne
  case launches_le =>
    rw [hlaunches]
    exact Nat.zero_le _
  case kept => exact hstate.kept_answer hflight reproduced maxNoReproduce

/-- A state with another launch count, arming, vector and workload. -/
def HuntState.withContext (state : HuntState) (launchesDone : Nat) (armed : Bool)
    (vector : List (CoreId × Int)) (workload : Option WorkloadEntry) : HuntState :=
  { state with launchesDone, armed, vector, workload }

/-- The crash context may change under a search that runs. -/
theorem Surviving.withContext (hstate : Surviving state search) {launchesDone : Nat}
    {armed : Bool} {vector : List (CoreId × Int)} {workload : Option WorkloadEntry}
    (hlaunches : launchesDone ≠ 0 → state.inFlight ≠ []) (hle : launchesDone ≤ maxInteger)
    (harmed : armed = true → vector ≠ [] ∧ state.inFlight ≠ [])
    (hvector : ∀ entry ∈ vector,
      entry.1 ≤ maxInteger ∧ minOffset ≤ entry.2 ∧ entry.2 ≤ maxInteger)
    (hworkload : ∀ entry, workload = some entry → workloadErrors "workload" 0 entry = []) :
    Surviving (state.withContext launchesDone armed vector workload) search := by
  have hshape : Shape (state.withContext launchesDone armed vector workload) search.focus := by
    have hsame := hstate.represents.shape
    cases hfocus : search.focus <;> rw [hfocus] at hsame <;> exact hsame
  have hrepresents := hstate.represents
  exact
    { represents :=
        ⟨hrepresents.pending_eq, hrepresents.found_eq, hrepresents.retries_eq, hshape⟩
      wellFormed := hstate.wellFormed
      retries_le := hstate.retries_le
      within := hstate.within
      ledger := hstate.ledger
      work := hstate.work
      candidates_set := hstate.candidates_set
      loaded_set := hstate.loaded_set
      time_nonneg := hstate.time_nonneg
      vector_bounded := hvector
      workload_sound := hworkload
      armed_ready := harmed
      launches_probe := hlaunches
      launches_le := hle
      kept := ⟨hstate.kept.level_le, hstate.kept.level_zero, hstate.kept.level_pos,
        hstate.kept.lead_fresh, hstate.kept.done_clear⟩ }

end Steps

/-! ## Runs with reboots -/

/-- What is done to a hunt: `reboot` writes it to the session row and reads it back. -/
inductive HuntMove
  | ask
  | answer (reproduced : Bool) (maxNoReproduce : Nat)
  | countLaunch
  | setContext (vector : List (CoreId × Int)) (workload : Option WorkloadEntry)
  | arm
  | disarm
  | reboot
deriving DecidableEq

/-- A hunt and the masks it has issued so far, the latest first. -/
structure HuntPass where
  state : HuntState
  issued : List (Option (List CoreId)) := []
deriving DecidableEq

/-- A dictionary of bounded offsets, and a workload the validator accepts. -/
def soundContext (vector : List (CoreId × Int)) (workload : Option WorkloadEntry) : Bool :=
  (vector.map Prod.fst).Nodup &&
    vector.all (fun entry =>
      entry.1 ≤ maxInteger ∧ minOffset ≤ entry.2 ∧ entry.2 ≤ (maxInteger : Int)) &&
    workload.all (fun entry => workloadErrors "workload" 0 entry = [])

/-- The moves of any caller that answers disarmed: counting and arming need a probe in
flight, and arming a vector. -/
def anyCaller (state : HuntState) : HuntMove → Bool
  | .answer _ _ => !state.armed
  | .countLaunch => state.inFlight ≠ []
  | .setContext vector workload => !state.armed && soundContext vector workload
  | .arm | .disarm => state.inFlight ≠ [] ∧ state.vector ≠ []
  | .ask | .reboot => true

/-- The moves of a caller that answers only a probe in flight, and whose counts stay
within the integers a row holds. -/
def boundedCaller (state : HuntState) (move : HuntMove) : Bool :=
  anyCaller state move &&
    match move with
    | .answer _ maxNoReproduce => state.inFlight ≠ [] ∧ maxNoReproduce ≤ maxInteger
    | .countLaunch => state.launchesDone < maxInteger
    | _ => true

/-- One move; `none` where the row cannot be written or read back. -/
def HuntPass.move (pass : HuntPass) : HuntMove → Option HuntPass
  | .ask =>
      some { state := (nextLiveSet pass.state).2
             issued := (nextLiveSet pass.state).1 :: pass.issued }
  | .answer reproduced maxNoReproduce =>
      some { pass with state := record pass.state reproduced maxNoReproduce }
  | .countLaunch =>
      some { pass with
        state := { pass.state with launchesDone := pass.state.launchesDone + 1 } }
  | .setContext vector workload =>
      some { pass with state := { pass.state with vector, workload } }
  | .arm => some { pass with state := { pass.state with armed := true } }
  | .disarm => some { pass with state := { pass.state with armed := false } }
  | .reboot =>
      match toJson pass.state >>= fromJson with
      | .ok state => some { pass with state }
      | .error _ => none

/-- The runs of a hunt under a caller. -/
def huntMoves (caller : HuntState → HuntMove → Bool) : StepSystem HuntPass HuntMove where
  Start pass :=
    (∃ candidates loaded observedFailureTime,
      begin candidates loaded observedFailureTime = .ok pass.state) ∧ pass.issued = []
  step pass move := if caller pass.state move then pass.move move else none

theorem Surviving.reboot {state : HuntState} {search : Search CoreId}
    (hstate : Surviving state search) : (toJson state >>= fromJson) = .ok state := by
  obtain ⟨document, hwrite, hread⟩ := fromJson_toJson hstate.persistable
  rw [hwrite]
  exact hread

theorem soundContext_iff {vector : List (CoreId × Int)} {workload : Option WorkloadEntry} :
    soundContext vector workload = true ↔ (vector.map Prod.fst).Nodup ∧
      (∀ entry ∈ vector, entry.1 ≤ maxInteger ∧ minOffset ≤ entry.2 ∧ entry.2 ≤ maxInteger) ∧
      ∀ entry, workload = some entry → workloadErrors "workload" 0 entry = [] := by
  cases workload <;> simp [soundContext, and_assoc]

/-- **Step lemma.**  Every move of a bounded caller keeps a hunt surviving. -/
theorem surviving_step {pass next : HuntPass} {move : HuntMove}
    (hpass : ∃ search, Surviving pass.state search)
    (hstep : (huntMoves boundedCaller).step pass move = some next) :
    ∃ search, Surviving next.state search := by
  obtain ⟨search, hstate⟩ := hpass
  obtain ⟨hcaller, hmove⟩ := Option.ite_none_right_eq_some.mp hstep
  have hvector := hstate.vector_bounded
  have hworkload := hstate.workload_sound
  cases move with
  | ask =>
      cases hmove
      exact ⟨search.ask, hstate.ask⟩
  | answer reproduced maxNoReproduce =>
      obtain ⟨harmed, hflight, hle⟩ : pass.state.armed = false ∧ pass.state.inFlight ≠ [] ∧
          maxNoReproduce ≤ maxInteger := by
        simpa [boundedCaller, anyCaller] using hcaller
      cases hmove
      exact ⟨_, hstate.answer hflight harmed hle reproduced⟩
  | countLaunch =>
      obtain ⟨hflight, hlt⟩ : pass.state.inFlight ≠ [] ∧ pass.state.launchesDone < maxInteger := by
        simpa [boundedCaller, anyCaller] using hcaller
      cases hmove
      exact ⟨search, hstate.withContext (fun _ => hflight) hlt hstate.armed_ready hvector
        hworkload⟩
  | setContext vector workload =>
      obtain ⟨harmed, hsound⟩ : pass.state.armed = false ∧
          soundContext vector workload = true := by
        simpa [boundedCaller, anyCaller] using hcaller
      obtain ⟨-, hbounded, haccepted⟩ := soundContext_iff.mp hsound
      cases hmove
      exact ⟨search, hstate.withContext hstate.launches_probe hstate.launches_le
        (fun hset => absurd (hset.symm.trans harmed) (by simp)) hbounded haccepted⟩
  | arm =>
      obtain ⟨hflight, hne⟩ : pass.state.inFlight ≠ [] ∧ pass.state.vector ≠ [] := by
        simpa [boundedCaller, anyCaller] using hcaller
      cases hmove
      exact ⟨search, hstate.withContext hstate.launches_probe hstate.launches_le
        (fun _ => ⟨hne, hflight⟩) hvector hworkload⟩
  | disarm =>
      cases hmove
      exact ⟨search, hstate.withContext hstate.launches_probe hstate.launches_le
        (fun hset => absurd hset (by simp)) hvector hworkload⟩
  | reboot =>
      simp only [HuntPass.move, hstate.reboot] at hmove
      cases hmove
      exact ⟨search, hstate⟩

/-- A reboot is no move at all. -/
theorem move_reboot {pass : HuntPass} {search : Search CoreId}
    (hstate : Surviving pass.state search) :
    (huntMoves boundedCaller).step pass .reboot = some pass := by
  show (if boundedCaller pass.state .reboot = true then pass.move .reboot else none) = some pass
  have hcaller : boundedCaller pass.state .reboot = true := rfl
  rw [if_pos hcaller, HuntPass.move, hstate.reboot]

/-- **Run lemma.**  Runs of a bounded caller are the runs without their reboots, and end
in surviving hunts. -/
theorem runEvents_reboots {pass : HuntPass} (hpass : ∃ search, Surviving pass.state search)
    (moves : List HuntMove) :
    (huntMoves boundedCaller).runEvents pass moves =
      (huntMoves boundedCaller).runEvents pass (moves.filter (· ≠ .reboot)) ∧
    ∀ final, (huntMoves boundedCaller).runEvents pass moves = some final →
      ∃ search, Surviving final.state search := by
  induction moves generalizing pass with
  | nil =>
      refine ⟨rfl, fun final hfinal => ?_⟩
      obtain rfl : pass = final := by simpa using hfinal
      exact hpass
  | cons move rest ih =>
      by_cases hreboot : move = .reboot
      · subst hreboot
        obtain ⟨search, hstate⟩ := hpass
        have hsame := move_reboot hstate
        obtain ⟨hruns, hends⟩ := ih ⟨search, hstate⟩
        simp only [StepSystem.runEvents_cons, hsame, Option.bind_some]
        refine ⟨?_, hends⟩
        rw [hruns]
        simp
      · have hkept : (move :: rest).filter (· ≠ .reboot) =
            move :: rest.filter (· ≠ .reboot) := by
          simp [hreboot]
        rw [hkept]
        simp only [StepSystem.runEvents_cons]
        cases hnext : (huntMoves boundedCaller).step pass move with
        | none => simp
        | some next =>
            obtain ⟨hruns, hends⟩ := ih (surviving_step hpass hnext)
            exact ⟨hruns, hends⟩

/-- **Any reboot schedule.**  In every run of a bounded caller, the hunt can be written to
the session row and is read back as it was written, the run is the one without its
reboots (with the same masks issued), and an unanswered probe is asked again unchanged. -/
theorem hunt_survives_reboots {start : HuntPass}
    (hstart : (huntMoves boundedCaller).Start start) (moves : List HuntMove) :
    (huntMoves boundedCaller).runEvents start moves =
      (huntMoves boundedCaller).runEvents start (moves.filter (· ≠ .reboot)) ∧
    ∀ final, (huntMoves boundedCaller).runEvents start moves = some final →
      (∃ document, toJson final.state = .ok document ∧
        fromJson document = .ok final.state) ∧
      (final.state.inFlight ≠ [] →
        nextLiveSet final.state = (some final.state.inFlight, final.state)) := by
  obtain ⟨⟨candidates, loaded, observedFailureTime, hbegin⟩, -⟩ := hstart
  obtain ⟨hruns, hends⟩ := runEvents_reboots ⟨_, surviving_opened hbegin⟩ moves
  refine ⟨hruns, fun final hfinal => ?_⟩
  obtain ⟨search, hstate⟩ := hends final hfinal
  refine ⟨fromJson_toJson hstate.persistable, fun hflight => ?_⟩
  exact nextLiveSet_of_inFlight (hstate.open_of_inFlight hflight) hflight

/-- Three live cores with core 1 under load: the lead probe survives a reboot while armed
and one while its first launch is counted, and after a clean answer the first half is
asked for once, whatever reboots follow. -/
theorem hunt_survives_reboots_mid_series :
    ((huntMoves boundedCaller).runEvents { state := opened [0, 1, 2] [1] 2 }
      [.setContext [(0, -20), (1, -15), (2, -30)] none, .ask, .arm, .reboot, .disarm,
        .countLaunch, .reboot, .ask, .answer false 2, .ask, .reboot, .reboot]).map
      (fun final => (final.issued, final.state.inFlight, final.state.queue)) =
    some ([some [0, 1], some [1], some [1]], [0, 1], [[2]]) := by
  have hstart : (huntMoves boundedCaller).Start { state := opened [0, 1, 2] [1] 2 } :=
    ⟨⟨[0, 1, 2], [1], 2, begin_eq_ok_iff.mpr ⟨by decide, by decide, by decide, rfl⟩⟩, rfl⟩
  rw [(hunt_survives_reboots hstart _).1]
  decide +kernel

/-! ## What the bounds are for -/

theorem toJson_error {state : HuntState} (hstate : ¬ Persistable state) :
    ∃ message, toJson state = .error message := by
  cases hvalid : validateState state with
  | ok value => exact absurd (validateState_eq_ok.mp hvalid) hstate
  | error message =>
      refine ⟨message, ?_⟩
      rw [toJson, hvalid]
      rfl

/-- Launches can be counted as often as one likes. -/
theorem runEvents_countLaunch {pass : HuntPass} (hflight : pass.state.inFlight ≠ [])
    (count : Nat) :
    (huntMoves anyCaller).runEvents pass (List.replicate count .countLaunch) =
      some { pass with
        state := { pass.state with launchesDone := pass.state.launchesDone + count } } := by
  induction count generalizing pass with
  | zero => rfl
  | succ count ih =>
      have hcaller : anyCaller pass.state .countLaunch = true := by
        simpa [anyCaller] using hflight
      have hstep : (huntMoves anyCaller).step pass .countLaunch = some { pass with
          state := { pass.state with launchesDone := pass.state.launchesDone + 1 } } := by
        show (if anyCaller pass.state .countLaunch = true then _ else none) = _
        rw [if_pos hcaller]
        rfl
      have hrest := @ih { pass with
        state := { pass.state with launchesDone := pass.state.launchesDone + 1 } } hflight
      rw [List.replicate_succ, StepSystem.runEvents_cons, hstep, Option.bind_some, hrest]
      simp only [Option.some.injEq, HuntPass.mk.injEq, HuntState.mk.injEq, and_true, true_and]
      omega

theorem counting_outgrows {pass : HuntPass} (hflight : pass.state.inFlight ≠ []) :
    ∃ final message, (huntMoves anyCaller).runEvents pass
        (List.replicate (2 ^ 31) .countLaunch) = some final ∧
      toJson final.state = .error message := by
  obtain ⟨message, herror⟩ := toJson_error fun hstate : Persistable
      { pass.state with launchesDone := pass.state.launchesDone + 2 ^ 31 } => by
    have hle : pass.state.launchesDone + 2 ^ 31 ≤ maxInteger := hstate.launchesDone_le
    unfold maxInteger at hle
    omega
  exact ⟨_, message, runEvents_countLaunch hflight (2 ^ 31), herror⟩

/-- Two live cores, none of them loaded alone, after `rounds` clean rounds. -/
def cleanPair (rounds : Nat) : HuntState :=
  { candidates := [0, 1], loaded := [0, 1], pending := [[0, 1]], noReproduce := rounds }

/-- Both halves of the pair asked for and answered clean. -/
def cleanRound (maxNoReproduce : Nat) : List HuntMove :=
  [.ask, .answer false maxNoReproduce, .ask, .answer false maxNoReproduce]

theorem runEvents_cleanRound {rounds maxNoReproduce : Nat} (hlt : rounds + 1 < maxNoReproduce)
    (issued : List (Option (List CoreId))) :
    (huntMoves anyCaller).runEvents { state := cleanPair rounds, issued }
      (cleanRound maxNoReproduce) =
    some { state := cleanPair (rounds + 1), issued := some [1] :: some [0] :: issued } := by
  have hopen : ¬ maxNoReproduce ≤ rounds + 1 := by omega
  simp [cleanRound, huntMoves, anyCaller, HuntPass.move, cleanPair, nextLiveSet, convictLone,
    split, record, hopen]

theorem runEvents_cleanRounds {maxNoReproduce : Nat} (count : Nat) {rounds : Nat}
    (hlt : rounds + count < maxNoReproduce) (issued : List (Option (List CoreId))) :
    ∃ asked, (huntMoves anyCaller).runEvents { state := cleanPair rounds, issued }
        (List.replicate count (cleanRound maxNoReproduce)).flatten =
      some { state := cleanPair (rounds + count), issued := asked } := by
  induction count generalizing rounds issued with
  | zero => exact ⟨issued, rfl⟩
  | succ count ih =>
      have hround := runEvents_cleanRound (show rounds + 1 < maxNoReproduce by omega) issued
      obtain ⟨asked, hrest⟩ := ih (show rounds + 1 + count < maxNoReproduce by omega)
        (some [1] :: some [0] :: issued)
      refine ⟨asked, ?_⟩
      rw [List.replicate_succ, List.flatten_cons, StepSystem.runEvents_append, hround,
        Option.bind_some, hrest, Nat.add_right_comm, Nat.add_assoc]

/-- A lead probe answered before it is asked, a launch counted too often and a retry
limit beyond the row's integers each leave a hunt that cannot be written down. -/
theorem hunt_outgrows_its_row :
    (huntMoves anyCaller).Start { state := opened [0, 1] [0] 0 } ∧
    (huntMoves anyCaller).Start { state := opened [0, 1] [0, 1] 0 } ∧
    (∃ final message, (huntMoves anyCaller).runEvents { state := opened [0, 1] [0] 0 }
        [.answer true 2] = some final ∧ toJson final.state = .error message) ∧
    (∃ final message, (huntMoves anyCaller).runEvents { state := opened [0, 1] [0, 1] 0 }
        (.ask :: List.replicate (2 ^ 31) .countLaunch) = some final ∧
      toJson final.state = .error message) ∧
    (∃ final message, (huntMoves anyCaller).runEvents { state := opened [0, 1] [0, 1] 0 }
        (List.replicate (2 ^ 31) (cleanRound (2 ^ 31 + 1))).flatten = some final ∧
      toJson final.state = .error message) := by
  have hpair : opened [0, 1] [0, 1] 0 = cleanPair 0 := by decide +kernel
  refine ⟨⟨⟨[0, 1], [0], 0, begin_eq_ok_iff.mpr ⟨by decide, by decide, by decide, rfl⟩⟩, rfl⟩,
    ⟨⟨[0, 1], [0, 1], 0, begin_eq_ok_iff.mpr ⟨by decide, by decide, by decide, rfl⟩⟩, rfl⟩,
    ?_, ?_, ?_⟩
  · obtain ⟨message, herror⟩ := @toJson_error (record (opened [0, 1] [0] 0) true 2)
      (fun hstate => hstate.stage_fits.1 (by decide +kernel))
    exact ⟨_, message, rfl, herror⟩
  · have hask : (huntMoves anyCaller).step { state := cleanPair 0 } .ask =
        some { state := (nextLiveSet (cleanPair 0)).2, issued := [some [0]] } := rfl
    have hflight : (nextLiveSet (cleanPair 0)).2.inFlight ≠ [] := by decide
    rw [hpair, StepSystem.runEvents_cons, hask, Option.bind_some]
    exact counting_outgrows hflight
  · obtain ⟨asked, hruns⟩ := runEvents_cleanRounds (2 ^ 31)
      (show 0 + 2 ^ 31 < 2 ^ 31 + 1 by omega) []
    obtain ⟨message, herror⟩ := @toJson_error (cleanPair (0 + 2 ^ 31))
      (fun hstate => absurd hstate.noReproduce_le (by decide))
    refine ⟨{ state := cleanPair (0 + 2 ^ 31), issued := asked }, message, ?_, herror⟩
    rw [hpair]
    exact hruns

end Bisect
end Tuner
end CoreCycler
