import CoreCycler.Library.GroupTesting

/-!
# A group-testing work-list with retries

`Search` is the work-list behind adaptive group testing when answers are noisy:
a failing group is split and both halves are tested; a group whose halves both
pass is tried again, and after `limit` clean rounds the whole group is tested
once more.  `Focus` says which question is open.

Two results carry over to any implementation that refines this search.  The
potential bounds the number of answered questions whatever the answers are.
For a deterministic test the members found are those of `isolate`.
-/

namespace CoreCycler
namespace Library
namespace GroupTesting

variable {α : Type*}

/-- The question a search has open. -/
inductive Focus (α : Type*)
  | lead (probe : List α)
  | idle
  | left (group : List α)
  | right (group : List α) (leftFailed : Bool)
  | whole (group : List α)
  | closed

/-- The state of a search: the groups known to fail and still to be split, the
members found, and the clean rounds since something last failed. -/
structure Search (α : Type*) where
  focus : Focus α
  pending : List (List α)
  found : List α
  retries : Nat

/-- The lone members at the head of the work-list. -/
def loneHead : List (List α) → List α
  | [member] :: rest => member :: loneHead rest
  | _ => []

/-- The work-list from its first group of two or more on. -/
def dropLone : List (List α) → List (List α)
  | [_] :: rest => dropLone rest
  | pending => pending

/-- Some half of a failing group that failed, in order. -/
def guiltyHalves (cut : Splitter α) (group : List α) (leftFailed rightFailed : Bool) :
    List (List α) :=
  (if leftFailed then [(cut.split group).1] else []) ++
    (if rightFailed then [(cut.split group).2] else [])

namespace Search

/-- Open the next question: an idle search takes its next group off the
work-list, or closes when nothing is left. -/
def ask (search : Search α) : Search α :=
  match search.focus with
  | .idle =>
      match dropLone search.pending with
      | [] =>
          { search with
            focus := .closed
            pending := []
            found := search.found ++ loneHead search.pending }
      | group :: rest =>
          { search with
            focus := .left group
            pending := rest
            found := search.found ++ loneHead search.pending }
  | _ => search

/-- The members under test in the open question. -/
def question (cut : Splitter α) (search : Search α) : Option (List α) :=
  match search.focus with
  | .lead probe => some probe
  | .idle => none
  | .left group => some (cut.split group).1
  | .right group _ => some (cut.split group).2
  | .whole group => some group
  | .closed => none

/-- Fold in the answer to the open question. -/
def answer (cut : Splitter α) (limit : Nat) (search : Search α) (failed : Bool) :
    Search α :=
  match search.focus with
  | .lead probe =>
      if failed then
        { search with focus := .closed, pending := [], found := probe }
      else
        { search with focus := .idle }
  | .idle => search
  | .left group =>
      { search with
        focus := .right group failed
        retries := if failed then 0 else search.retries }
  | .right group leftFailed =>
      if leftFailed || failed then
        { search with
          focus := .idle
          pending := guiltyHalves cut group leftFailed failed ++ search.pending
          retries := if failed then 0 else search.retries }
      else if limit ≤ search.retries + 1 then
        { search with focus := .whole group, retries := search.retries + 1 }
      else
        { search with
          focus := .idle
          pending := group :: search.pending
          retries := search.retries + 1 }
  | .whole group =>
      if failed then
        { search with
          focus := if search.pending.isEmpty then .closed else .idle
          found := search.found ++ group
          retries := 0 }
      else
        { search with focus := .closed, pending := [] }
  | .closed => search

/-- The group the open question is about. -/
def focusGroups (search : Search α) : List (List α) :=
  match search.focus with
  | .left group => [group]
  | .right group _ => [group]
  | .whole group => [group]
  | _ => []

/-- A search that has nothing to ask is closed. -/
theorem closed_of_question_ask {cut : Splitter α} {search : Search α}
    (hnone : search.ask.question cut = none) : search.ask.focus = .closed := by
  obtain ⟨focus, pending, found, retries⟩ := search
  cases focus with
  | idle =>
      cases hdrop : dropLone pending with
      | nil => simp [ask, hdrop]
      | cons group rest => simp [ask, hdrop, question] at hnone
  | lead _ => simp [ask, question] at hnone
  | left _ => simp [ask, question] at hnone
  | right _ _ => simp [ask, question] at hnone
  | whole _ => simp [ask, question] at hnone
  | closed => rfl

/-! ## The work-list's lone head -/

theorem loneHead_append_dropLone (pending : List (List α)) :
    loneHead pending ++ (dropLone pending).flatten = pending.flatten := by
  induction pending with
  | nil => rfl
  | cons group rest ih =>
      cases group with
      | nil => rfl
      | cons member others =>
          cases others with
          | nil => simpa [loneHead, dropLone] using ih
          | cons _ _ => rfl

theorem dropLone_subset (pending : List (List α)) : dropLone pending ⊆ pending := by
  induction pending with
  | nil => simp [dropLone]
  | cons group rest ih =>
      cases group with
      | nil => exact List.Subset.refl _
      | cons member others =>
          cases others with
          | nil => exact fun part hpart => List.mem_cons_of_mem _ (ih hpart)
          | cons _ _ => exact List.Subset.refl _

/-- The group the work-list goes on with has at least two members. -/
theorem two_le_length_of_dropLone {pending : List (List α)} {group : List α}
    {rest : List (List α)} (hne : ∀ part ∈ pending, part ≠ [])
    (hdrop : dropLone pending = group :: rest) : 2 ≤ group.length := by
  induction pending with
  | nil => simp [dropLone] at hdrop
  | cons head tail ih =>
      cases head with
      | nil => exact absurd rfl (hne [] List.mem_cons_self)
      | cons member others =>
          cases others with
          | nil => exact ih (fun part hpart => hne part (List.mem_cons_of_mem _ hpart)) hdrop
          | cons second _ =>
              obtain ⟨rfl, -⟩ := List.cons.inj hdrop
              simp

/-! ## Well-formed searches -/

/-- What every reachable search keeps: groups are nonempty, the group under test
has two members, and a running retry count belongs to a group that is still to
be split. -/
structure WellFormed (limit : Nat) (search : Search α) : Prop where
  pending_ne_nil : ∀ group ∈ search.pending, group ≠ []
  focus_two : ∀ group ∈ search.focusGroups, 2 ≤ group.length
  retries_lt : search.focus = .idle → search.retries ≠ 0 →
    search.retries < limit ∧ ∃ group rest, search.pending = group :: rest ∧ 2 ≤ group.length
  retries_left : ∀ group, search.focus = .left group → search.retries < limit
  retries_right : ∀ group, search.focus = .right group false → search.retries < limit
  retries_guilty : ∀ group, search.focus = .right group true → search.retries = 0
  lead_retries : ∀ probe, search.focus = .lead probe → search.retries = 0
  closed_pending : search.focus = .closed → search.pending = []

variable {cut : Splitter α} {limit : Nat} {search : Search α}

theorem guiltyHalves_ne_nil {group : List α} (hlen : 2 ≤ group.length)
    (leftFailed rightFailed : Bool) :
    ∀ part ∈ guiltyHalves cut group leftFailed rightFailed, part ≠ [] := by
  intro part hpart
  simp only [guiltyHalves, List.mem_append, List.mem_ite_nil_right, List.mem_singleton] at hpart
  rcases hpart with ⟨-, rfl⟩ | ⟨-, rfl⟩
  · exact cut.left_ne_nil group hlen
  · exact cut.right_ne_nil group hlen

theorem WellFormed.ask (hlimit : 1 ≤ limit) (hwf : search.WellFormed limit) :
    search.ask.WellFormed limit := by
  obtain ⟨focus, pending, found, retries⟩ := search
  cases focus with
  | idle =>
      cases hdrop : dropLone pending with
      | nil =>
          simp only [Search.ask, hdrop]
          constructor <;> simp [focusGroups]
      | cons group rest =>
          have hlen := two_le_length_of_dropLone hwf.pending_ne_nil hdrop
          have hsub := dropLone_subset pending
          rw [hdrop] at hsub
          simp only [Search.ask, hdrop]
          constructor
          · intro part hpart
            exact hwf.pending_ne_nil part (hsub (List.mem_cons_of_mem _ hpart))
          · simpa [focusGroups] using hlen
          · simp
          · intro _ _
            by_cases hzero : retries = 0
            · show retries < limit
              omega
            · exact (hwf.retries_lt rfl hzero).1
          all_goals simp
  | lead _ => exact hwf
  | left _ => exact hwf
  | right _ _ => exact hwf
  | whole _ => exact hwf
  | closed => exact hwf

/-- An answer may be folded in with any retry limit up to the one the search keeps. -/
theorem WellFormed.answer_of_le {tried : Nat} (hwf : search.WellFormed limit)
    (hle : tried ≤ limit) (failed : Bool) :
    (search.answer cut tried failed).WellFormed limit := by
  obtain ⟨focus, pending, found, retries⟩ := search
  cases focus with
  | lead probe =>
      have hretries : retries = 0 := hwf.lead_retries probe rfl
      cases failed
      · constructor
        · exact hwf.pending_ne_nil
        all_goals simp [Search.answer, focusGroups, hretries]
      · constructor <;> simp [Search.answer, focusGroups]
  | idle => exact hwf
  | left group =>
      have hlen : 2 ≤ group.length := hwf.focus_two group (by simp [focusGroups])
      have hlt : retries < limit := hwf.retries_left group rfl
      constructor
      · exact hwf.pending_ne_nil
      · simpa [Search.answer, focusGroups] using hlen
      · simp [Search.answer]
      · simp [Search.answer]
      · rintro other hother
        obtain ⟨-, rfl⟩ : group = other ∧ failed = false := by
          simpa [Search.answer] using hother
        exact hlt
      · rintro other hother
        obtain ⟨-, rfl⟩ : group = other ∧ failed = true := by
          simpa [Search.answer] using hother
        rfl
      · simp [Search.answer]
      · simp [Search.answer]
  | right group leftFailed =>
      have hlen : 2 ≤ group.length := hwf.focus_two group (by simp [focusGroups])
      by_cases hguilty : (leftFailed || failed) = true
      -- A guilty half has set the tries back, if not this one then the first.
      · have hzero : (if failed then 0 else retries) = 0 := by
          cases failed with
          | true => rfl
          | false =>
              obtain rfl : leftFailed = true := by simpa using hguilty
              exact hwf.retries_guilty group rfl
        simp only [Search.answer, if_pos hguilty, hzero]
        constructor
        · intro part hpart
          rcases List.mem_append.mp hpart with hhalf | hrest
          · exact guiltyHalves_ne_nil hlen _ _ part hhalf
          · exact hwf.pending_ne_nil part hrest
        all_goals simp [focusGroups]
      · simp only [Search.answer, if_neg hguilty]
        by_cases hlast : tried ≤ retries + 1
        · rw [if_pos hlast]
          constructor
          · exact hwf.pending_ne_nil
          · simpa [focusGroups] using hlen
          all_goals simp
        · rw [if_neg hlast]
          constructor
          · intro part hpart
            rcases List.mem_cons.mp hpart with rfl | hrest
            · exact List.ne_nil_of_length_pos (by omega)
            · exact hwf.pending_ne_nil part hrest
          · simp [focusGroups]
          · intro _ _
            exact ⟨by show retries + 1 < limit; omega, group, pending, rfl, hlen⟩
          all_goals simp
  | whole group =>
      cases failed
      · constructor <;> simp [Search.answer, focusGroups]
      · constructor
        · exact hwf.pending_ne_nil
        · cases pending <;> simp [Search.answer, focusGroups]
        all_goals cases pending <;> simp [Search.answer]
  | closed => exact hwf

theorem WellFormed.answer (hwf : search.WellFormed limit) (failed : Bool) :
    (search.answer cut limit failed).WellFormed limit :=
  hwf.answer_of_le le_rfl failed

theorem retries_ask (search : Search α) : search.ask.retries = search.retries := by
  unfold ask
  split
  · split <;> rfl
  · rfl

/-- The retry count never passes the limit a well-formed search keeps. -/
theorem WellFormed.retries_answer_le {tried : Nat} (hwf : search.WellFormed limit)
    (hretries : search.retries ≤ limit) (failed : Bool) :
    (search.answer cut tried failed).retries ≤ limit := by
  obtain ⟨focus, pending, found, retries⟩ := search
  have hle : retries ≤ limit := hretries
  cases focus with
  | lead probe => cases failed <;> exact hle
  | idle => exact hle
  | left group =>
      show (if failed then 0 else retries) ≤ limit
      split <;> omega
  | right group leftFailed =>
      by_cases hguilty : (leftFailed || failed) = true
      · simp only [Search.answer, if_pos hguilty]
        split <;> omega
      · obtain ⟨rfl, rfl⟩ : leftFailed = false ∧ failed = false := by simpa using hguilty
        have hlt : retries < limit := hwf.retries_right group rfl
        simp only [Search.answer, if_neg hguilty]
        split
        · show retries + 1 ≤ limit
          omega
        · show retries + 1 ≤ limit
          omega
  | whole group =>
      cases failed
      · exact hle
      · exact Nat.zero_le limit
  | closed => exact hle

/-! ## The potential -/

/-- What a group of the work-list can still cost: every member but one is split
off by a round, and a round costs two questions per try and one whole-group
question. -/
def groupCost (limit : Nat) (group : List α) : Nat := (group.length - 1) * (2 * limit + 1)

def pendingCost (limit : Nat) (pending : List (List α)) : Nat :=
  (pending.map (groupCost limit)).sum

/-- An upper bound on the questions a search can still have answered. -/
def potential (cut : Splitter α) (limit : Nat) (search : Search α) : Nat :=
  match search.focus with
  | .lead _ => pendingCost limit search.pending + 1
  | .idle => pendingCost limit search.pending - 2 * search.retries
  | .left group =>
      pendingCost limit search.pending + groupCost limit group - 2 * search.retries
  | .right group true =>
      pendingCost limit search.pending + 1 + groupCost limit (cut.split group).1 +
        groupCost limit (cut.split group).2
  | .right group false =>
      pendingCost limit search.pending + groupCost limit group - 2 * search.retries - 1
  | .whole _ => pendingCost limit search.pending + 1
  | .closed => 0

@[simp] theorem pendingCost_nil : pendingCost limit ([] : List (List α)) = 0 := rfl

@[simp] theorem pendingCost_cons (group : List α) (rest : List (List α)) :
    pendingCost limit (group :: rest) = groupCost limit group + pendingCost limit rest := rfl

theorem groupCost_ge (limit : Nat) {group : List α} (hlen : 2 ≤ group.length) :
    2 * limit + 1 ≤ groupCost limit group := by
  have hone : 1 ≤ group.length - 1 := by omega
  exact Nat.le_mul_of_pos_left _ hone

/-- Splitting a group saves one whole round. -/
theorem groupCost_split (cut : Splitter α) (limit : Nat) {group : List α} (hlen : 2 ≤ group.length) :
    groupCost limit (cut.split group).1 + groupCost limit (cut.split group).2 +
      (2 * limit + 1) = groupCost limit group := by
  have hadd := cut.length_add group
  have hleft := List.length_pos_iff.mpr (cut.left_ne_nil group hlen)
  have hright := List.length_pos_iff.mpr (cut.right_ne_nil group hlen)
  obtain ⟨m, hm⟩ : ∃ m, (cut.split group).1.length = m + 1 := ⟨_, (Nat.succ_pred_eq_of_pos hleft).symm⟩
  obtain ⟨n, hn⟩ : ∃ n, (cut.split group).2.length = n + 1 := ⟨_, (Nat.succ_pred_eq_of_pos hright).symm⟩
  have hgroup : group.length - 1 = m + n + 1 := by omega
  simp only [groupCost, hm, hn, hgroup, Nat.add_sub_cancel]
  ring

theorem pendingCost_dropLone (limit : Nat) (pending : List (List α)) :
    pendingCost limit (dropLone pending) = pendingCost limit pending := by
  induction pending with
  | nil => rfl
  | cons group rest ih =>
      cases group with
      | nil => rfl
      | cons member others =>
          cases others with
          | nil => simpa [dropLone, groupCost] using ih
          | cons _ _ => rfl

/-- Opening the next question costs nothing. -/
theorem potential_ask (cut : Splitter α) (limit : Nat) (search : Search α) :
    search.ask.potential cut limit ≤ search.potential cut limit := by
  obtain ⟨focus, pending, found, retries⟩ := search
  cases focus with
  | idle =>
      have hcost := pendingCost_dropLone limit pending
      cases hdrop : dropLone pending with
      | nil => simp [ask, hdrop, potential]
      | cons group rest =>
          rw [hdrop, pendingCost_cons] at hcost
          simp only [ask, hdrop, potential]
          omega
  | lead _ => exact le_refl _
  | left _ => exact le_refl _
  | right _ _ => exact le_refl _
  | whole _ => exact le_refl _
  | closed => exact le_refl _

/-- **Every answered question lowers the potential**, whatever the answer. -/
theorem potential_answer_lt {cut : Splitter α} (hwf : search.WellFormed limit)
    (hopen : (search.question cut).isSome) (failed : Bool) :
    (search.answer cut limit failed).potential cut limit <
      search.potential cut limit := by
  obtain ⟨focus, pending, found, retries⟩ := search
  cases focus with
  | idle => simp [question] at hopen
  | closed => simp [question] at hopen
  | lead probe =>
      have hretries : retries = 0 := hwf.lead_retries probe rfl
      cases failed <;> simp [answer, potential, hretries]
  | left group =>
      have hlen : 2 ≤ group.length := hwf.focus_two group (by simp [focusGroups])
      have hlt : retries < limit := hwf.retries_left group rfl
      have hcost := groupCost_ge limit hlen
      -- A group pays for both of its halves and for the tries it has left.
      have hsplit := groupCost_split cut limit hlen
      cases failed <;> simp only [answer, potential, Bool.false_eq_true, if_false, if_true] <;>
        omega
  | right group leftFailed =>
      have hlen : 2 ≤ group.length := hwf.focus_two group (by simp [focusGroups])
      have hcost := groupCost_ge limit hlen
      have hsplit := groupCost_split cut limit hlen
      cases leftFailed with
      | true =>
          have hzero : retries = 0 := hwf.retries_guilty group rfl
          cases failed <;>
            simp [answer, potential, guiltyHalves, hzero] <;> omega
      | false =>
          have hlt : retries < limit := hwf.retries_right group rfl
          cases failed with
          | true =>
              simp [answer, potential, guiltyHalves]
              omega
          | false =>
              simp only [answer, Bool.or_self, Bool.false_eq_true, if_false]
              split <;> simp [potential] <;> omega
  | whole group =>
      cases failed with
      | false => simp [answer, potential]
      | true => cases pending <;> simp [answer, potential]

/-! ## Deterministic tests -/

/-- The members the open question's group will be traced to. -/
def focusAnswer (cut : Splitter α) (fails : List α → Bool) (search : Search α) : List α :=
  search.focusGroups.flatMap (isolate cut fails)

/-- Under a deterministic test whose lead probe passes, everything on the work-list
fails, the recorded half answers are the test's, and what is found so far together with what the
remaining groups will be traced to is the answer. -/
structure Traced (cut : Splitter α) (fails : List α → Bool) (target : List α)
    (search : Search α) : Prop where
  lead_passes : ∀ probe, search.focus = .lead probe → fails probe = false
  pending_fails : ∀ group ∈ search.pending, fails group = true
  focus_fails : ∀ group ∈ search.focusGroups, fails group = true
  left_answer : ∀ group leftFailed, search.focus = .right group leftFailed →
    leftFailed = fails (cut.split group).1
  whole_answer : ∀ group, search.focus = .whole group →
    fails (cut.split group).1 = false ∧ fails (cut.split group).2 = false
  accounts : (search.found ++ search.focusAnswer cut fails ++
    search.pending.flatMap (isolate cut fails)).Perm target

variable {fails : List α → Bool} {target : List α}

/-- Lone members are their own answers, so opening a question keeps the account. -/
theorem flatMap_isolate_eq (pending : List (List α)) :
    pending.flatMap (isolate cut fails) =
      loneHead pending ++ (dropLone pending).flatMap (isolate cut fails) := by
  induction pending with
  | nil => rfl
  | cons group rest ih =>
      cases group with
      | nil => rfl
      | cons member others =>
          cases others with
          | nil =>
              rw [List.flatMap_cons, isolate_of_length_le_one (by simp), ih]
              rfl
          | cons _ _ => rfl

theorem Traced.ask (htraced : search.Traced cut fails target) :
    search.ask.Traced cut fails target := by
  obtain ⟨focus, pending, found, retries⟩ := search
  cases focus with
  | idle =>
      have haccounts := htraced.accounts
      simp only [focusAnswer, focusGroups, List.flatMap_nil, List.append_nil] at haccounts
      rw [flatMap_isolate_eq] at haccounts
      have hsub := dropLone_subset pending
      cases hdrop : dropLone pending with
      | nil =>
          simp only [hdrop, List.flatMap_nil, List.append_nil] at haccounts
          simp only [Search.ask, hdrop]
          constructor <;> simp [focusGroups, focusAnswer, haccounts]
      | cons group rest =>
          rw [hdrop] at haccounts hsub
          simp only [Search.ask, hdrop]
          constructor
          · simp
          · intro part hpart
            exact htraced.pending_fails part (hsub (List.mem_cons_of_mem _ hpart))
          · intro part hpart
            obtain rfl : part = group := by simpa [focusGroups] using hpart
            exact htraced.pending_fails part (hsub List.mem_cons_self)
          · simp
          · simp
          · simpa [focusAnswer, focusGroups] using haccounts
  | lead _ => exact htraced
  | left _ => exact htraced
  | right _ _ => exact htraced
  | whole _ => exact htraced
  | closed => exact htraced

/-- The failing halves of a split are traced to the group's answer. -/
theorem flatMap_guiltyHalves {group : List α} (hlen : 2 ≤ group.length)
    (hsome : (fails (cut.split group).1 || fails (cut.split group).2) = true) :
    (guiltyHalves cut group (fails (cut.split group).1)
      (fails (cut.split group).2)).flatMap (isolate cut fails) =
      isolate cut fails group := by
  rw [isolate_of_half hlen hsome, guiltyHalves, List.flatMap_append]
  congr 1 <;> split <;> simp

/-- Folding in the test's own answer keeps the account. -/
theorem Traced.answer (hwf : search.WellFormed limit)
    (htraced : search.Traced cut fails target)
    {probe : List α} (hquestion : search.question cut = some probe) :
    (search.answer cut limit (fails probe)).Traced cut fails target := by
  obtain ⟨focus, pending, found, retries⟩ := search
  have haccounts := htraced.accounts
  cases focus with
  | idle => simp [question] at hquestion
  | closed => simp [question] at hquestion
  | lead lone =>
      obtain rfl : lone = probe := by simpa [question] using hquestion
      -- A lead that is still traced is one that passes.
      rw [htraced.lead_passes lone rfl]
      constructor
      · simp [Search.answer]
      · exact htraced.pending_fails
      · simp [Search.answer, focusGroups]
      · simp [Search.answer]
      · simp [Search.answer]
      · simpa [Search.answer, focusAnswer, focusGroups] using haccounts
  | left group =>
      obtain rfl : (cut.split group).1 = probe := by simpa [question] using hquestion
      constructor
      · simp [Search.answer]
      · exact htraced.pending_fails
      · exact htraced.focus_fails
      · rintro other leftFailed hother
        obtain ⟨rfl, rfl⟩ : group = other ∧ fails (cut.split group).1 = leftFailed := by
          simpa [Search.answer] using hother
        rfl
      · simp [Search.answer]
      · exact haccounts
  | right group leftFailed =>
      obtain rfl : (cut.split group).2 = probe := by simpa [question] using hquestion
      obtain rfl : leftFailed = fails (cut.split group).1 :=
        htraced.left_answer group leftFailed rfl
      have hlen : 2 ≤ group.length := hwf.focus_two group (by simp [focusGroups])
      have hfails : fails group = true := htraced.focus_fails group (by simp [focusGroups])
      simp only [focusAnswer, focusGroups, List.flatMap_cons, List.flatMap_nil,
        List.append_nil] at haccounts
      -- With a guilty half the group is isolated half by half, otherwise it fails as a whole only.
      by_cases hguilty : (fails (cut.split group).1 || fails (cut.split group).2) = true
      · simp only [Search.answer, if_pos hguilty]
        constructor
        · simp
        · intro part hpart
          rcases List.mem_append.mp hpart with hhalf | hrest
          · simp only [guiltyHalves, List.mem_append, List.mem_ite_nil_right,
              List.mem_singleton] at hhalf
            rcases hhalf with ⟨hpartFails, rfl⟩ | ⟨hpartFails, rfl⟩ <;> exact hpartFails
          · exact htraced.pending_fails part hrest
        · simp [focusGroups]
        · simp
        · simp
        · simpa [focusAnswer, focusGroups, List.flatMap_append,
            flatMap_guiltyHalves hlen hguilty, List.append_assoc] using haccounts
      · obtain ⟨hleft, hright⟩ : fails (cut.split group).1 = false ∧
            fails (cut.split group).2 = false := by
          simpa using hguilty
        simp only [Search.answer, if_neg hguilty]
        split
        · constructor
          · simp
          · exact htraced.pending_fails
          · exact htraced.focus_fails
          · simp
          · rintro other hother
            obtain rfl : group = other := by simpa using hother
            exact ⟨hleft, hright⟩
          · simpa [focusAnswer, focusGroups] using haccounts
        · constructor
          · simp
          · intro part hpart
            rcases List.mem_cons.mp hpart with rfl | hrest
            · exact hfails
            · exact htraced.pending_fails part hrest
          · simp [focusGroups]
          · simp
          · simp
          · simpa [focusAnswer, focusGroups, List.append_assoc] using haccounts
  | whole group =>
      obtain rfl : group = probe := by simpa [question] using hquestion
      have hfails : fails group = true := htraced.focus_fails group (by simp [focusGroups])
      obtain ⟨hleft, hright⟩ := htraced.whole_answer group rfl
      -- Neither half failed: the group is what isolation leaves of itself.
      have hgroup : isolate cut fails group = group := isolate_of_conjunction hleft hright
      simp only [focusAnswer, focusGroups, List.flatMap_cons, List.flatMap_nil,
        List.append_nil, hgroup] at haccounts
      rw [hfails]
      cases pending with
      | nil =>
          constructor <;> simp_all [Search.answer, focusGroups, focusAnswer]
      | cons head tail =>
          constructor
          · simp [Search.answer]
          · exact htraced.pending_fails
          · simp [Search.answer, focusGroups]
          · simp [Search.answer]
          · simp [Search.answer]
          · simpa [Search.answer, focusAnswer, focusGroups] using haccounts

/-! ## One suspect -/

/-- A search every failing question of which contains `member` holds nothing against the
other members. -/
structure Suspects (cut : Splitter α) (member : α) (search : Search α) : Prop where
  pending : ∀ other, [other] ∈ search.pending → other = member
  found : ∀ other ∈ search.found, other = member
  left : ∀ group, search.focus = .right group true →
    ∀ other, (cut.split group).1 = [other] → other = member

variable {member : α}

theorem eq_of_mem_loneHead {pending : List (List α)}
    (hpending : ∀ other, [other] ∈ pending → other = member) :
    ∀ other ∈ loneHead pending, other = member := by
  induction pending with
  | nil => simp [loneHead]
  | cons group rest ih =>
      have hrest := ih fun other hother => hpending other (List.mem_cons_of_mem _ hother)
      cases group with
      | nil => simp [loneHead]
      | cons head others =>
          cases others with
          | nil =>
              intro other hother
              rcases List.mem_cons.mp hother with rfl | htail
              · exact hpending other List.mem_cons_self
              · exact hrest other htail
          | cons _ _ => simp [loneHead]

theorem Suspects.ask (hsuspects : search.Suspects cut member) :
    search.ask.Suspects cut member := by
  obtain ⟨focus, pending, found, retries⟩ := search
  cases focus with
  | idle =>
      have hfound : ∀ other ∈ found ++ loneHead pending, other = member := by
        intro other hother
        rcases List.mem_append.mp hother with hold | hlone
        · exact hsuspects.found other hold
        · exact eq_of_mem_loneHead hsuspects.pending other hlone
      have hsub := dropLone_subset pending
      cases hdrop : dropLone pending with
      | nil =>
          simp only [Search.ask, hdrop]
          exact ⟨by simp, hfound, by simp⟩
      | cons group rest =>
          rw [hdrop] at hsub
          simp only [Search.ask, hdrop]
          refine ⟨?_, hfound, by simp⟩
          intro other hother
          exact hsuspects.pending other (hsub (List.mem_cons_of_mem _ hother))
  | lead _ => exact hsuspects
  | left _ => exact hsuspects
  | right _ _ => exact hsuspects
  | whole _ => exact hsuspects
  | closed => exact hsuspects

/-- A failing question that contains the member adds nothing against another one, unless it
is about a whole group or a lead probe. -/
theorem Suspects.answer (hwf : search.WellFormed limit) (hsuspects : search.Suspects cut member)
    {probe : List α} (hquestion : search.question cut = some probe) {failed : Bool}
    (hmember : failed = true → member ∈ probe)
    (hlead : ∀ lone, search.focus = .lead lone → failed = false)
    (hwhole : ∀ group, search.focus = .whole group → failed = false) :
    (search.answer cut limit failed).Suspects cut member := by
  obtain ⟨focus, pending, found, retries⟩ := search
  have hlone : ∀ other, failed = true → probe = [other] → other = member := by
    rintro other hfailed rfl
    exact (List.mem_singleton.mp (hmember hfailed)).symm
  cases focus with
  | idle => simp [question] at hquestion
  | closed => simp [question] at hquestion
  | lead lone =>
      rw [hlead lone rfl]
      exact ⟨hsuspects.pending, hsuspects.found, by simp [Search.answer]⟩
  | left group =>
      obtain rfl : (cut.split group).1 = probe := by simpa [question] using hquestion
      refine ⟨hsuspects.pending, hsuspects.found, ?_⟩
      intro part hpart other hother
      obtain ⟨rfl, hfailed⟩ : group = part ∧ failed = true := by
        simpa [Search.answer] using hpart
      exact hlone other hfailed hother
  | right group leftFailed =>
      obtain rfl : (cut.split group).2 = probe := by simpa [question] using hquestion
      have hlen : 2 ≤ group.length := hwf.focus_two group (by simp [focusGroups])
      have hagain : ∀ other, [other] ∈ group :: pending → other = member := by
        intro other hother
        rcases List.mem_cons.mp hother with rfl | hrest
        · simp at hlen
        · exact hsuspects.pending other hrest
      by_cases hguilty : (leftFailed || failed) = true
      · simp only [Search.answer, if_pos hguilty]
        refine ⟨?_, hsuspects.found, by simp⟩
        intro other hother
        rcases List.mem_append.mp hother with hhalf | hrest
        · simp only [guiltyHalves, List.mem_append, List.mem_ite_nil_right,
            List.mem_singleton] at hhalf
          rcases hhalf with ⟨rfl, hhalf⟩ | ⟨hfailed, hhalf⟩
          · exact hsuspects.left group rfl other hhalf.symm
          · exact hlone other hfailed hhalf.symm
        · exact hsuspects.pending other hrest
      · simp only [Search.answer, if_neg hguilty]
        split
        · exact ⟨hsuspects.pending, hsuspects.found, by simp⟩
        · exact ⟨hagain, hsuspects.found, by simp⟩
  | whole group =>
      rw [hwhole group rfl]
      exact ⟨by simp [Search.answer], hsuspects.found, by simp [Search.answer]⟩

end Search
end GroupTesting
end Library
end CoreCycler
