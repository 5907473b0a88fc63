import CoreCycler.Library.RetrySearch
import CoreCycler.Tuner.Bisect

/-!
# The hunt refines the retrying search

`Represents` ties every field of a hunt to the abstract work-list search: the
stage, `parent`, `queue`, `in_flight` and `guilty_halves` together say which
question is open.  `nextLiveSet` then is the search's `ask` and `record` is its
`answer`, so termination and the identity of the culprits are the search's.
-/

namespace CoreCycler
namespace Tuner
namespace Bisect

open Library.GroupTesting

/-! ## Ascending order -/

theorem sorted_perm (cores : List CoreId) : (sorted cores).Perm cores :=
  List.perm_insertionSort _ _

theorem sorted_pairwise (cores : List CoreId) : (sorted cores).Pairwise (· ≤ ·) :=
  List.pairwise_insertionSort _ _

theorem sorted_of_pairwise {cores : List CoreId} (hsorted : cores.Pairwise (· ≤ ·)) :
    sorted cores = cores :=
  List.Pairwise.insertionSort_eq hsorted

theorem sorted_eq_of_perm {first second : List CoreId} (hperm : first.Perm second) :
    sorted first = sorted second :=
  ((sorted_perm first).trans (hperm.trans (sorted_perm second).symm)).eq_of_pairwise'
    (sorted_pairwise first) (sorted_pairwise second)

theorem sorted_append_sorted (first second : List CoreId) :
    sorted (sorted first ++ second) = sorted (first ++ second) :=
  sorted_eq_of_perm ((sorted_perm first).append_right second)

@[simp] theorem sorted_eq_nil {cores : List CoreId} : sorted cores = [] ↔ cores = [] := by
  rw [← List.length_eq_zero_iff, ← List.length_eq_zero_iff, (sorted_perm cores).length_eq]

@[simp] theorem mem_sorted {core : CoreId} {cores : List CoreId} :
    core ∈ sorted cores ↔ core ∈ cores :=
  (sorted_perm cores).mem_iff

@[simp] theorem length_sorted (cores : List CoreId) : (sorted cores).length = cores.length :=
  (sorted_perm cores).length_eq

/-! ## Splitting -/

/-- The hunt's halving as a splitter. -/
def halving : Splitter CoreId where
  split := split
  append_eq group := List.take_append_drop _ group
  left_ne_nil group hlen := by
    simp only [split, ne_eq, List.take_eq_nil_iff, not_or]
    constructor
    · omega
    · rintro rfl
      simp at hlen
  right_ne_nil group hlen := by
    simp only [split, ne_eq, List.drop_eq_nil_iff]
    omega

@[simp] theorem halving_split (group : List CoreId) : halving.split group = split group := rfl

theorem split_fst_ne {group : List CoreId} (hlen : 2 ≤ group.length) :
    (split group).1 ≠ group := by
  intro heq
  have hlt := halving.left_length_lt hlen
  rw [halving_split, heq] at hlt
  exact lt_irrefl _ hlt

theorem split_snd_ne {group : List CoreId} (hlen : 2 ≤ group.length) :
    (split group).2 ≠ group := by
  intro heq
  have hlt := halving.right_length_lt hlen
  rw [halving_split, heq] at hlt
  exact lt_irrefl _ hlt

theorem leadProbe_eq_nil_or (candidates loaded : List CoreId) :
    leadProbe candidates loaded = [] ∨ (leadProbe candidates loaded).length = 1 := by
  simp only [leadProbe]
  split
  · next hlone => exact .inr hlone.1
  · exact .inl rfl

/-! ## The representation -/

/-- How the split under test is laid out in a hunt that has `focus` open.  The
second half, or the whole set, waits in `queue` until its launch. -/
def Shape (state : HuntState) : Focus CoreId → Prop
  | .lead probe =>
      state.stage = .lead ∧ probe = leadProbe state.candidates state.loaded ∧
        probe.length = 1 ∧ (state.inFlight = [] ∨ state.inFlight = probe) ∧
        state.parent = [] ∧ state.queue = [] ∧ state.guiltyHalves = []
  | .idle =>
      state.stage = .probe ∧ state.parent = [] ∧ state.inFlight = [] ∧ state.queue = [] ∧
        state.guiltyHalves = []
  | .left group =>
      state.stage = .probe ∧ state.parent = group ∧ state.inFlight = (split group).1 ∧
        state.queue = [(split group).2] ∧ state.guiltyHalves = []
  | .right group leftFailed =>
      state.stage = .probe ∧ state.parent = group ∧
        (state.inFlight = (split group).2 ∧ state.queue = [] ∨
          state.inFlight = [] ∧ state.queue = [(split group).2]) ∧
        state.guiltyHalves = if leftFailed then [(split group).1] else []
  | .whole group =>
      state.stage = .probe ∧ state.parent = group ∧
        (state.inFlight = group ∧ state.queue = [] ∨
          state.inFlight = [] ∧ state.queue = [group]) ∧
        state.guiltyHalves = []
  | .closed =>
      state.stage = (if state.found ≠ [] then .culprit else .exhausted) ∧
        state.inFlight = [] ∧ state.guiltyHalves = []

/-- A hunt carries the progress of an abstract search. -/
structure Represents (state : HuntState) (search : Search CoreId) : Prop where
  pending_eq : state.pending = search.pending
  found_eq : state.found = sorted search.found
  retries_eq : state.noReproduce = search.retries
  shape : Shape state search.focus

variable {state : HuntState} {search : Search CoreId} {maxNoReproduce : Nat}

theorem convictLone_eq (pending : List (List CoreId)) (found : List CoreId) :
    convictLone pending (sorted found) =
      (dropLone pending, sorted (found ++ loneHead pending)) := by
  induction pending generalizing found with
  | nil => simp [convictLone, dropLone, loneHead]
  | cons group rest ih =>
      cases group with
      | nil => simp [convictLone, dropLone, loneHead]
      | cons core others =>
          cases others with
          | nil =>
              rw [convictLone, sorted_append_sorted, ih]
              simp [dropLone, loneHead]
          | cons _ _ => simp [convictLone, dropLone, loneHead]

/-- `nextLiveSet` opens the search's next question and puts its mask in flight. -/
theorem Represents.nextLiveSet (hrep : Represents state search)
    (hwf : search.WellFormed maxNoReproduce) :
    (nextLiveSet state).1 = search.ask.question halving ∧
      Represents (Bisect.nextLiveSet state).2 search.ask ∧
      (∀ live, (Bisect.nextLiveSet state).1 = some live →
        (Bisect.nextLiveSet state).2.inFlight = live) := by
  obtain ⟨hpending, hfound, hretries, hshape⟩ := hrep
  obtain ⟨focus, pending, found, retries⟩ := search
  simp only at hpending hfound hretries
  cases focus with
  | lead probe =>
      obtain ⟨hstage, hprobe, hlone, hflight, hparent, hqueue, hguilty⟩ := hshape
      have hne : probe ≠ [] := by
        rintro rfl
        simp at hlone
      -- A lead is in flight already if the hunt was resumed in the middle of it.
      rcases hflight with hflight | hflight
      · rw [nextLiveSet_of_lead hstage hflight, ← hprobe]
        refine ⟨rfl, ⟨hpending, hfound, hretries, ?_⟩, by simp⟩
        exact ⟨hstage, hprobe, hlone, .inr rfl, hparent, hqueue, hguilty⟩
      · rw [nextLiveSet_of_inFlight (.inl hstage) (by rwa [hflight]), hflight]
        refine ⟨rfl, ⟨hpending, hfound, hretries, ?_⟩, by simp⟩
        exact ⟨hstage, hprobe, hlone, .inr hflight, hparent, hqueue, hguilty⟩
  | idle =>
      obtain ⟨hstage, hparent, hflight, hqueue, hguilty⟩ := hshape
      -- Groups of one core need no probe: they are convicted before the next group is split.
      have hconvict : convictLone state.pending state.found =
          (dropLone pending, sorted (found ++ loneHead pending)) := by
        rw [hpending, hfound, convictLone_eq]
      cases hdrop : dropLone pending with
      | nil =>
          rw [nextLiveSet_of_empty hstage hflight hqueue (by rw [hconvict, hdrop]), hconvict]
          refine ⟨by simp [Search.ask, Search.question, hdrop], ⟨?_, ?_, ?_, ?_⟩, by simp⟩
          · simp [Search.ask, hdrop]
          · simp [Search.ask, hdrop]
          · simpa [Search.ask, hdrop] using hretries
          · simp [Search.ask, hdrop, Shape, hflight, hguilty]
      | cons group rest =>
          rw [nextLiveSet_of_pending hstage hflight hqueue (by rw [hconvict, hdrop]), hconvict]
          refine ⟨by simp [Search.ask, Search.question, hdrop], ⟨?_, ?_, ?_, ?_⟩, by simp⟩
          · simp [Search.ask, hdrop]
          · simp [Search.ask, hdrop]
          · simpa [Search.ask, hdrop] using hretries
          · simp [Search.ask, hdrop, Shape, hstage]
  | left group =>
      have hlen : 2 ≤ group.length := hwf.focus_two group (by simp [Search.focusGroups])
      obtain ⟨hstage, hparent, hflight, hqueue, hguilty⟩ := hshape
      have hne : state.inFlight ≠ [] := by
        rw [hflight]
        exact halving.left_ne_nil group hlen
      rw [nextLiveSet_of_inFlight (.inr hstage) hne]
      refine ⟨by simp [Search.ask, Search.question, hflight], ⟨hpending, hfound, hretries, ?_⟩,
        by simp⟩
      exact ⟨hstage, hparent, hflight, hqueue, hguilty⟩
  | right group leftFailed =>
      have hlen : 2 ≤ group.length := hwf.focus_two group (by simp [Search.focusGroups])
      obtain ⟨hstage, hparent, hopen, hguilty⟩ := hshape
      rcases hopen with ⟨hflight, hqueue⟩ | ⟨hflight, hqueue⟩
      · have hne : state.inFlight ≠ [] := by
          rw [hflight]
          exact halving.right_ne_nil group hlen
        rw [nextLiveSet_of_inFlight (.inr hstage) hne]
        refine ⟨by simp [Search.ask, Search.question, hflight],
          ⟨hpending, hfound, hretries, ?_⟩, by simp⟩
        exact ⟨hstage, hparent, .inl ⟨hflight, hqueue⟩, hguilty⟩
      -- The second half stands in the queue until it is asked for.
      · rw [nextLiveSet_of_queue hstage hflight hqueue]
        refine ⟨by simp [Search.ask, Search.question], ⟨hpending, hfound, hretries, ?_⟩,
          by simp⟩
        exact ⟨hstage, hparent, .inl ⟨rfl, rfl⟩, hguilty⟩
  | whole group =>
      have hlen : 2 ≤ group.length := hwf.focus_two group (by simp [Search.focusGroups])
      obtain ⟨hstage, hparent, hopen, hguilty⟩ := hshape
      rcases hopen with ⟨hflight, hqueue⟩ | ⟨hflight, hqueue⟩
      · have hne : state.inFlight ≠ [] := by
          rw [hflight]
          exact List.ne_nil_of_length_pos (by omega)
        rw [nextLiveSet_of_inFlight (.inr hstage) hne]
        refine ⟨by simp [Search.ask, Search.question, hflight],
          ⟨hpending, hfound, hretries, ?_⟩, by simp⟩
        exact ⟨hstage, hparent, .inl ⟨hflight, hqueue⟩, hguilty⟩
      · rw [nextLiveSet_of_queue hstage hflight hqueue]
        refine ⟨by simp [Search.ask, Search.question], ⟨hpending, hfound, hretries, ?_⟩,
          by simp⟩
        exact ⟨hstage, hparent, .inl ⟨rfl, rfl⟩, hguilty⟩
  | closed =>
      have hdone : state.stage = .culprit ∨ state.stage = .exhausted := by
        rw [hshape.1]
        split <;> simp
      rw [nextLiveSet_of_done hdone]
      exact ⟨rfl, ⟨hpending, hfound, hretries, hshape⟩, by simp⟩

/-- `record` folds the answer into the search, with whatever retry limit it is called
with. -/
theorem Represents.record_of_wellFormed {limit : Nat} (hrep : Represents state search)
    (hwf : search.WellFormed limit) {live : List CoreId}
    (hquestion : search.question halving = some live) (hflight : state.inFlight = live)
    (reproduced : Bool) :
    Represents (Bisect.record state reproduced maxNoReproduce)
      (search.answer halving maxNoReproduce reproduced) := by
  obtain ⟨hpending, hfound, hretries, hshape⟩ := hrep
  obtain ⟨focus, pending, found, retries⟩ := search
  simp only at hpending hfound hretries
  cases focus with
  | idle => simp [Search.question] at hquestion
  | closed => simp [Search.question] at hquestion
  | lead probe =>
      obtain rfl : probe = live := by simpa [Search.question] using hquestion
      obtain ⟨hstage, -, hlone, -, hparent, hqueue, hguilty⟩ := hshape
      rw [record_of_lead hstage]
      cases reproduced with
      | true =>
          obtain ⟨core, rfl⟩ := List.length_eq_one_iff.mp hlone
          refine ⟨rfl, ?_, hretries, ?_⟩
          · simpa [Search.answer, sorted] using hflight
          · simp [Search.answer, Shape, hflight, hguilty]
      | false => exact ⟨hpending, hfound, hretries, rfl, hparent, rfl, hqueue, hguilty⟩
  | left group =>
      have hlen : 2 ≤ group.length := hwf.focus_two group (by simp [Search.focusGroups])
      obtain ⟨hstage, hparent, hleft, hqueue, hguilty⟩ := hshape
      -- The code tells a half from the whole set by comparing it with its parent.
      have hhalf : state.inFlight ≠ state.parent := by
        rw [hparent, hleft]
        exact split_fst_ne hlen
      rw [record_of_queue hstage hhalf (by simp [hqueue])]
      refine ⟨hpending, hfound, ?_, ?_⟩
      · simp [noteHalf, Search.answer, hretries]
      · refine ⟨hstage, hparent, .inr ⟨rfl, hqueue⟩, ?_⟩
        simp [noteHalf, hguilty, hleft]
  | right group leftFailed =>
      have hlen : 2 ≤ group.length := hwf.focus_two group (by simp [Search.focusGroups])
      obtain rfl : (split group).2 = live := by simpa [Search.question] using hquestion
      obtain ⟨hstage, hparent, hopen, hguilty⟩ := hshape
      have hqueue : state.queue = [] := by
        rcases hopen with ⟨-, hqueue⟩ | ⟨hempty, -⟩
        · exact hqueue
        · exact absurd (hflight.symm.trans hempty) (halving.right_ne_nil group hlen)
      have hhalf : state.inFlight ≠ state.parent := by
        rw [hparent, hflight]
        exact split_snd_ne hlen
      have hnoted : (noteHalf state reproduced).guiltyHalves =
          guiltyHalves halving group leftFailed reproduced := by
        simp [noteHalf, guiltyHalves, hguilty, hflight]
      by_cases hsome : (leftFailed || reproduced) = true
      · have hne : (noteHalf state reproduced).guiltyHalves ≠ [] := by
          rw [hnoted]
          cases leftFailed <;> cases reproduced <;> simp_all [guiltyHalves]
        rw [record_of_guilty hstage hhalf hqueue hne]
        refine ⟨?_, ?_, ?_, ?_⟩
        · simp [Search.answer, hsome, hnoted, hpending]
        · simpa [Search.answer, hsome, noteHalf] using hfound
        · simp [Search.answer, hsome, noteHalf, hretries]
        · simp [Search.answer, hsome, noteHalf, Shape, hstage, hqueue]
      · obtain ⟨rfl, rfl⟩ : leftFailed = false ∧ reproduced = false := by
          simpa using hsome
        rw [record_of_clean hstage hhalf hqueue (by rw [hnoted]; rfl)]
        -- After enough passes of both halves the whole set is put to the test.
        by_cases hlast : maxNoReproduce ≤ retries + 1
        · rw [if_pos (by rwa [hretries])]
          refine ⟨?_, ?_, ?_, ?_⟩
          · simpa [Search.answer, hlast] using hpending
          · simpa [Search.answer, hlast] using hfound
          · simp [Search.answer, hlast, hretries]
          · simpa [Search.answer, hlast, Shape, hstage, hparent] using hguilty
        · rw [if_neg (by rwa [hretries])]
          refine ⟨?_, ?_, ?_, ?_⟩
          · simp [Search.answer, hlast, hpending, hparent]
          · simpa [Search.answer, hlast] using hfound
          · simp [Search.answer, hlast, hretries]
          · simpa [Search.answer, hlast, Shape, hstage, hqueue] using hguilty
  | whole group =>
      have hlen : 2 ≤ group.length := hwf.focus_two group (by simp [Search.focusGroups])
      obtain rfl : group = live := by simpa [Search.question] using hquestion
      obtain ⟨hstage, hparent, hopen, hguilty⟩ := hshape
      have hne : group ≠ [] := List.ne_nil_of_length_pos (by omega)
      have hqueue : state.queue = [] := by
        rcases hopen with ⟨-, hqueue⟩ | ⟨hempty, -⟩
        · exact hqueue
        · exact absurd (hflight.symm.trans hempty) hne
      rw [record_of_whole hstage (by rw [hflight, hparent]), recordWholeSet]
      cases reproduced with
      | false =>
          refine ⟨rfl, hfound, hretries, ?_⟩
          simp [Search.answer, Shape, hguilty]
      | true =>
          have hfound' : sorted (state.found ++ state.parent) = sorted (found ++ group) := by
            rw [hparent, hfound, sorted_append_sorted]
          refine ⟨hpending, hfound', rfl, ?_⟩
          cases pending with
          | nil => simp [Search.answer, Shape, hpending, hparent, hne, hguilty]
          | cons head tail =>
              simp [Search.answer, Shape, hpending, hstage, hqueue, hguilty]

theorem Represents.record (hrep : Represents state search)
    (hwf : search.WellFormed maxNoReproduce) {live : List CoreId}
    (hquestion : search.question halving = some live) (hflight : state.inFlight = live)
    (reproduced : Bool) :
    Represents (Bisect.record state reproduced maxNoReproduce)
      (search.answer halving maxNoReproduce reproduced) :=
  hrep.record_of_wellFormed hwf hquestion hflight reproduced

end Bisect
end Tuner
end CoreCycler
