import CoreCycler.Library.RetrySearch

/-!
# Which failing groups a search still accounts for

When answers are inconsistent the search cannot trust its work-list to fail
again, but it can still be asked to lose no group it has seen fail.  `recorded`
is the list of groups whose failure was answered.  The one event that takes a
recorded group off the work-list without an answer about that group is a whole
group answered clean while others wait.
-/

namespace CoreCycler
namespace Library
namespace GroupTesting
namespace Search

variable {α : Type*} {cut : Splitter α} {limit : Nat} {search : Search α}
  {recorded : List (List α)} {root : List α}

/-- The groups seen to fail once the open question is answered. -/
def note (cut : Splitter α) (search : Search α) (recorded : List (List α)) (failed : Bool) :
    List (List α) :=
  if failed then (search.question cut).toList ++ recorded else recorded

/-- What every reachable search keeps of the groups seen to fail: apart from the
root, only they wait on the work-list, and nothing is found or grouped twice. -/
structure Ledger (cut : Splitter α) (root : List α) (search : Search α)
    (recorded : List (List α)) : Prop where
  pending_recorded : (∀ group ∈ search.pending, group ∈ recorded) ∨
    search.pending = [root] ∧ search.focusGroups = []
  left_recorded : ∀ group, search.focus = .right group true →
    (cut.split group).1 ∈ recorded
  lead_probe : ∀ probe, search.focus = .lead probe → recorded = [] ∧ probe.Nodup
  focus_root : ∀ group, search.focus = .left group ∨ search.focus = .right group false ∨
    search.focus = .whole group → group ∈ recorded ∨ group = root ∧ search.pending = []
  nodup : (search.found ++ search.focusGroups.flatten ++ search.pending.flatten).Nodup

theorem mem_loneHead_or_dropLone {pending : List (List α)} {group : List α}
    (hmem : group ∈ pending) :
    (∃ member ∈ loneHead pending, group = [member]) ∨ group ∈ dropLone pending := by
  induction pending with
  | nil => simp at hmem
  | cons head rest ih =>
      cases head with
      | nil => exact .inr hmem
      | cons member others =>
          cases others with
          | nil =>
              rcases List.mem_cons.mp hmem with rfl | hrest
              · exact .inl ⟨member, by simp [loneHead], rfl⟩
              · rcases ih hrest with ⟨other, hother, rfl⟩ | hdrop
                · exact .inl ⟨other, by simp [loneHead, hother], rfl⟩
                · exact .inr hdrop
          | cons _ _ => exact .inr hmem

theorem Ledger.ask (hledger : search.Ledger cut root recorded) :
    search.ask.Ledger cut root recorded := by
  obtain ⟨focus, pending, found, retries⟩ := search
  cases focus with
  | idle =>
      have hnodup := hledger.nodup
      simp only [focusGroups, List.flatten_nil, List.append_nil] at hnodup
      rw [← loneHead_append_dropLone, ← List.append_assoc] at hnodup
      cases hdrop : dropLone pending with
      | nil =>
          rw [hdrop] at hnodup
          simp only [Search.ask, hdrop]
          constructor <;> simp_all [focusGroups]
      | cons group rest =>
          have hsub := dropLone_subset pending
          rw [hdrop] at hnodup hsub
          have hrest : (∀ other ∈ rest, other ∈ recorded) ∧
              (group ∈ recorded ∨ group = root ∧ rest = []) := by
            -- Only the root may be pending without a record, and then it is the only group.
            rcases hledger.pending_recorded with hall | ⟨hroot, -⟩
            · exact ⟨fun other hother => hall other (hsub (List.mem_cons_of_mem _ hother)),
                .inl (hall group (hsub List.mem_cons_self))⟩
            · simp only at hroot
              subst hroot
              have hshort : (group :: rest).Sublist [root] := by
                rw [← hdrop]
                cases root with
                | nil => simp [dropLone]
                | cons member others => cases others <;> simp [dropLone]
              have hone : rest = [] := by
                have hlen := hshort.length_le
                simp only [List.length_cons, List.length_nil] at hlen
                exact List.length_eq_zero_iff.mp (by omega)
              subst hone
              have heq := hshort.eq_of_length (by simp)
              simp only [List.cons.injEq, and_true] at heq
              simp [heq]
          simp only [Search.ask, hdrop]
          constructor
          · exact .inl hrest.1
          · simp
          · simp
          · rintro other (hother | hother | hother)
            · obtain rfl : group = other := by simpa using hother
              exact hrest.2
            · simp at hother
            · simp at hother
          · simpa [focusGroups] using hnodup
  | lead _ => exact hledger
  | left _ => exact hledger
  | right _ _ => exact hledger
  | whole _ => exact hledger
  | closed => exact hledger

theorem guiltyHalves_flatten_sublist (cut : Splitter α) (group : List α) (leftFailed rightFailed : Bool) :
    (guiltyHalves cut group leftFailed rightFailed).flatten.Sublist group := by
  conv_rhs => rw [← cut.append_eq group]
  rw [guiltyHalves, List.flatten_append]
  apply List.Sublist.append
  · cases leftFailed <;> simp
  · cases rightFailed <;> simp

theorem Ledger.all_recorded (hledger : search.Ledger cut root recorded)
    (hfocus : search.focusGroups ≠ []) : ∀ group ∈ search.pending, group ∈ recorded :=
  hledger.pending_recorded.resolve_right fun hroot => hfocus hroot.2

theorem mem_note_of_mem {group : List α} (hmem : group ∈ recorded) (failed : Bool) :
    group ∈ search.note cut recorded failed := by
  cases failed <;> simp [note, hmem]

theorem Ledger.answer (hledger : search.Ledger cut root recorded) (limit : Nat)
    (failed : Bool) :
    (search.answer cut limit failed).Ledger cut root (search.note cut recorded failed) := by
  obtain ⟨focus, pending, found, retries⟩ := search
  cases focus with
  | idle => cases failed <;> exact hledger
  | closed => cases failed <;> exact hledger
  | lead probe =>
      obtain ⟨rfl, hprobe⟩ := hledger.lead_probe probe rfl
      have hnodup := hledger.nodup
      have hpending := hledger.pending_recorded
      cases failed with
      | true => constructor <;> simp [Search.answer, focusGroups, hprobe]
      | false =>
          constructor
          · simpa [Search.answer, note, focusGroups] using hpending
          · simp [Search.answer]
          · simp [Search.answer]
          · simp [Search.answer]
          · simpa [Search.answer, focusGroups] using hnodup
  | left group =>
      have hall := hledger.all_recorded (by simp [focusGroups])
      constructor
      · exact .inl fun other hother => mem_note_of_mem (hall other hother) failed
      · rintro other hother
        obtain ⟨rfl, rfl⟩ : group = other ∧ failed = true := by
          simpa [Search.answer] using hother
        simp [note, question]
      · simp [Search.answer]
      · rintro other (hother | hother | hother)
        · simp [Search.answer] at hother
        · obtain ⟨rfl, rfl⟩ : group = other ∧ failed = false := by
            simpa [Search.answer] using hother
          exact hledger.focus_root group (.inl rfl)
        · simp [Search.answer] at hother
      · exact hledger.nodup
  | right group leftFailed =>
      have hall := hledger.all_recorded (by simp [focusGroups])
      have hnodup := hledger.nodup
      simp only [focusGroups, List.flatten_cons, List.flatten_nil, List.append_nil] at hnodup
      -- A half that failed takes the place of its group, and has been recorded as it was asked.
      by_cases hguilty : (leftFailed || failed) = true
      · simp only [Search.answer, if_pos hguilty]
        constructor
        · refine .inl fun part hpart => ?_
          rcases List.mem_append.mp hpart with hhalf | hrest
          · simp only [guiltyHalves, List.mem_append, List.mem_ite_nil_right,
              List.mem_singleton] at hhalf
            rcases hhalf with ⟨rfl, rfl⟩ | ⟨rfl, rfl⟩
            · exact mem_note_of_mem (hledger.left_recorded group rfl) failed
            · simp [note, question]
          · exact mem_note_of_mem (hall part hrest) failed
        · simp
        · simp
        · simp
        · have hsub := ((guiltyHalves_flatten_sublist cut group leftFailed failed).append
            (List.Sublist.refl pending.flatten)).append_left found
          refine List.Nodup.sublist ?_ hnodup
          simpa [focusGroups, List.append_assoc] using hsub
      · obtain ⟨rfl, rfl⟩ : leftFailed = false ∧ failed = false := by
          simpa using hguilty
        -- Both halves passed: the whole group is asked next, or it waits for another try.
        have hroot := hledger.focus_root group (.inr (.inl rfl))
        simp only [Search.answer, if_neg hguilty]
        split
        · constructor
          · exact .inl hall
          · simp
          · simp
          · rintro other (hother | hother | hother)
            · simp at hother
            · simp at hother
            · obtain rfl : group = other := by simpa using hother
              exact hroot
          · simpa [focusGroups] using hnodup
        · constructor
          · rcases hroot with hrecorded | ⟨rfl, hnone⟩
            · refine .inl fun part hpart => ?_
              rcases List.mem_cons.mp hpart with rfl | hrest
              · exact hrecorded
              · exact hall part hrest
            · simp only at hnone
              exact .inr ⟨by simp [hnone], rfl⟩
          · simp
          · simp
          · simp
          · simpa [focusGroups] using hnodup
  | whole group =>
      have hall := hledger.all_recorded (by simp [focusGroups])
      have hnodup := hledger.nodup
      simp only [focusGroups, List.flatten_cons, List.flatten_nil, List.append_nil] at hnodup
      cases failed with
      | false =>
          constructor
          · simp [Search.answer]
          · simp [Search.answer]
          · simp [Search.answer]
          · simp [Search.answer]
          -- The search closes with what it had found before.
          · rw [List.append_assoc] at hnodup
            simpa [Search.answer, focusGroups] using hnodup.of_append_left
      | true =>
          constructor
          · exact .inl fun other hother => mem_note_of_mem (hall other hother) true
          · cases pending <;> simp [Search.answer]
          · cases pending <;> simp [Search.answer]
          · cases pending <;> simp [Search.answer]
          · cases pending <;> simpa [Search.answer, focusGroups] using hnodup

/-! ## How a group leaves the work-list -/

/-- Asking takes a group off the work-list only to split it, or as a lone member
that is found. -/
theorem kept_ask {group : List α} (hmem : group ∈ search.pending) :
    group ∈ search.ask.pending ∨ search.ask.focus = .left group ∨
      ∃ member ∈ search.ask.found, group = [member] := by
  obtain ⟨focus, pending, found, retries⟩ := search
  cases focus with
  | idle =>
      rcases mem_loneHead_or_dropLone hmem with ⟨member, hlone, rfl⟩ | hdropped
      · refine .inr (.inr ⟨member, ?_, rfl⟩)
        cases hdrop : dropLone pending <;> simp [Search.ask, hdrop, hlone]
      · cases hdrop : dropLone pending with
        | nil => simp [hdrop] at hdropped
        | cons head rest =>
            rw [hdrop] at hdropped
            rcases List.mem_cons.mp hdropped with rfl | hrest
            · exact .inr (.inl (by simp [Search.ask, hdrop]))
            · exact .inl (by simpa [Search.ask, hdrop] using hrest)
  | lead _ => exact .inl hmem
  | left _ => exact .inl hmem
  | right _ _ => exact .inl hmem
  | whole _ => exact .inl hmem
  | closed => exact .inl hmem

/-- An answer takes a recorded group off the work-list only when the group under
test is another one, tested whole, and clean. -/
theorem Ledger.kept_answer (hledger : search.Ledger cut root recorded) {group : List α}
    (hrecorded : group ∈ recorded) (hmem : group ∈ search.pending) (limit : Nat)
    (failed : Bool) :
    group ∈ (search.answer cut limit failed).pending ∨
      failed = false ∧ ∃ whole, search.focus = .whole whole := by
  obtain ⟨focus, pending, found, retries⟩ := search
  cases focus with
  | idle => exact .inl hmem
  | closed => exact .inl hmem
  | lead probe =>
      obtain ⟨rfl, -⟩ := hledger.lead_probe probe rfl
      simp at hrecorded
  | left _ => exact .inl hmem
  | right half leftFailed =>
      refine .inl ?_
      simp only [Search.answer]
      split
      · exact List.mem_append_right _ hmem
      · split
        · exact hmem
        · exact List.mem_cons_of_mem _ hmem
  | whole whole =>
      cases failed with
      | true => exact .inl hmem
      | false => exact .inr ⟨rfl, whole, rfl⟩

/-! ## Where a failing group goes -/

theorem found_subset_ask : search.found ⊆ search.ask.found := by
  obtain ⟨focus, pending, found, retries⟩ := search
  cases focus with
  | idle => cases hdrop : dropLone pending <;> simp [Search.ask, hdrop]
  | lead _ => exact List.Subset.refl _
  | left _ => exact List.Subset.refl _
  | right _ _ => exact List.Subset.refl _
  | whole _ => exact List.Subset.refl _
  | closed => exact List.Subset.refl _

/-- Past the lead probe, what is found stays found. -/
theorem found_subset_answer (hlead : ∀ probe, search.focus ≠ .lead probe)
    (cut : Splitter α) (limit : Nat) (failed : Bool) :
    search.found ⊆ (search.answer cut limit failed).found := by
  obtain ⟨focus, pending, found, retries⟩ := search
  cases focus with
  | lead probe => exact absurd rfl (hlead probe)
  | right group leftFailed =>
      simp only [Search.answer]
      split
      · exact List.Subset.refl _
      · split <;> exact List.Subset.refl _
  | whole group => cases failed <;> simp [Search.answer]
  | idle => exact List.Subset.refl _
  | left _ => exact List.Subset.refl _
  | closed => exact List.Subset.refl _

/-- A half that failed waits for its sibling and then goes on the work-list. -/
theorem left_half_pending {group : List α} (hfocus : search.focus = .right group true)
    (cut : Splitter α) (limit : Nat) (failed : Bool) : (cut.split group).1 ∈ (search.answer cut limit failed).pending := by
  simp [Search.answer, hfocus, guiltyHalves]

/-- The group of a question answered as failing waits for its sibling, goes on the
work-list, or is found. -/
theorem failed_question_kept {probe : List α} (hquestion : search.question cut = some probe)
    (limit : Nat) :
    probe ∈ (search.answer cut limit true).pending ∨
      (∃ group, (search.answer cut limit true).focus = .right group true ∧
        probe = (cut.split group).1) ∨
      probe ⊆ (search.answer cut limit true).found := by
  obtain ⟨focus, pending, found, retries⟩ := search
  cases focus with
  | idle => simp [question] at hquestion
  | closed => simp [question] at hquestion
  | lead lone =>
      obtain rfl : lone = probe := by simpa [question] using hquestion
      simp [Search.answer]
  | left group =>
      obtain rfl : (cut.split group).1 = probe := by simpa [question] using hquestion
      exact .inr (.inl ⟨group, rfl, rfl⟩)
  | right group leftFailed =>
      obtain rfl : (cut.split group).2 = probe := by simpa [question] using hquestion
      simp [Search.answer, guiltyHalves]
  | whole group =>
      obtain rfl : group = probe := by simpa [question] using hquestion
      simp [Search.answer]

/-! ## Staying within the root -/

/-- Whatever a search holds comes from its root, in the root's order. -/
structure Within (root : List α) (search : Search α) : Prop where
  pending_sublist : ∀ group ∈ search.pending, group.Sublist root
  focus_sublist : ∀ group ∈ search.focusGroups, group.Sublist root
  lead_sublist : ∀ probe, search.focus = .lead probe → probe.Sublist root
  found_subset : search.found ⊆ root

theorem loneHead_subset_flatten (pending : List (List α)) :
    loneHead pending ⊆ pending.flatten := by
  intro member hmember
  rw [← loneHead_append_dropLone]
  exact List.mem_append_left _ hmember

theorem Within.ask (hwithin : search.Within root) : search.ask.Within root := by
  obtain ⟨focus, pending, found, retries⟩ := search
  cases focus with
  | idle =>
      have hlone : loneHead pending ⊆ root := by
        intro member hmember
        obtain ⟨group, hgroup, hmem⟩ := List.mem_flatten.mp
          (loneHead_subset_flatten pending hmember)
        exact (hwithin.pending_sublist group hgroup).subset hmem
      have hfound : found ++ loneHead pending ⊆ root :=
        List.append_subset.mpr ⟨hwithin.found_subset, hlone⟩
      cases hdrop : dropLone pending with
      | nil =>
          simp only [Search.ask, hdrop]
          constructor <;> simp_all [focusGroups]
      | cons group rest =>
          have hsub := dropLone_subset pending
          rw [hdrop] at hsub
          simp only [Search.ask, hdrop]
          constructor
          · intro part hpart
            exact hwithin.pending_sublist part (hsub (List.mem_cons_of_mem _ hpart))
          · intro part hpart
            obtain rfl : part = group := by simpa [focusGroups] using hpart
            exact hwithin.pending_sublist part (hsub List.mem_cons_self)
          · simp
          · exact hfound
  | lead _ => exact hwithin
  | left _ => exact hwithin
  | right _ _ => exact hwithin
  | whole _ => exact hwithin
  | closed => exact hwithin

theorem split_fst_sublist (cut : Splitter α) (group : List α) :
    (cut.split group).1.Sublist group := by
  conv_rhs => rw [← cut.append_eq group]
  exact List.sublist_append_left _ _

theorem split_snd_sublist (cut : Splitter α) (group : List α) :
    (cut.split group).2.Sublist group := by
  conv_rhs => rw [← cut.append_eq group]
  exact List.sublist_append_right _ _

theorem Within.answer (hwithin : search.Within root) (cut : Splitter α) (limit : Nat)
    (failed : Bool) : (search.answer cut limit failed).Within root := by
  obtain ⟨focus, pending, found, retries⟩ := search
  have hpending := hwithin.pending_sublist
  have hfound := hwithin.found_subset
  cases focus with
  | idle => exact hwithin
  | closed => exact hwithin
  | lead probe =>
      have hprobe := (hwithin.lead_sublist probe rfl).subset
      cases failed
      · exact ⟨hpending, by simp [Search.answer, focusGroups], by simp [Search.answer], hfound⟩
      · constructor <;> simp [Search.answer, focusGroups, hprobe]
  | left group =>
      have hgroup := hwithin.focus_sublist group (by simp [focusGroups])
      exact ⟨hpending, by simpa [Search.answer, focusGroups] using hgroup,
        by simp [Search.answer], hfound⟩
  | right group leftFailed =>
      have hgroup := hwithin.focus_sublist group (by simp [focusGroups])
      by_cases hguilty : (leftFailed || failed) = true
      · simp only [Search.answer, if_pos hguilty]
        refine ⟨fun part hpart => ?_, by simp [focusGroups], by simp, hfound⟩
        rcases List.mem_append.mp hpart with hhalf | hrest
        · simp only [guiltyHalves, List.mem_append, List.mem_ite_nil_right,
            List.mem_singleton] at hhalf
          rcases hhalf with ⟨-, rfl⟩ | ⟨-, rfl⟩
          · exact (split_fst_sublist cut group).trans hgroup
          · exact (split_snd_sublist cut group).trans hgroup
        · exact hpending part hrest
      · simp only [Search.answer, if_neg hguilty]
        split
        · exact ⟨hpending, by simpa [focusGroups] using hgroup, by simp, hfound⟩
        · refine ⟨fun part hpart => ?_, by simp [focusGroups], by simp, hfound⟩
          rcases List.mem_cons.mp hpart with rfl | hrest
          · exact hgroup
          · exact hpending part hrest
  | whole group =>
      have hgroup := hwithin.focus_sublist group (by simp [focusGroups])
      cases failed with
      | false =>
          refine ⟨?_, ?_, ?_, hfound⟩ <;> simp [Search.answer, focusGroups]
      | true =>
          refine ⟨hpending, ?_, ?_, List.append_subset.mpr ⟨hfound, hgroup.subset⟩⟩ <;>
            cases pending <;> simp [Search.answer, focusGroups]

/-! ## Work is left while nothing is asked -/

/-- An idle search, and one that still has its lead probe open, has groups to split. -/
def HasWork (search : Search α) : Prop :=
  (search.focus = .idle ∨ ∃ probe, search.focus = .lead probe) → search.pending ≠ []

theorem HasWork.ask (hwork : search.HasWork) : search.ask.HasWork := by
  obtain ⟨focus, pending, found, retries⟩ := search
  cases focus with
  | idle =>
      intro hopen
      unfold Search.ask at hopen
      cases hdrop : dropLone pending <;> simp [hdrop] at hopen
  | lead _ => exact hwork
  | left _ => exact hwork
  | right _ _ => exact hwork
  | whole _ => exact hwork
  | closed => exact hwork

theorem HasWork.answer (hwork : search.HasWork) (cut : Splitter α) (limit : Nat)
    (failed : Bool) : (search.answer cut limit failed).HasWork := by
  obtain ⟨focus, pending, found, retries⟩ := search
  cases focus with
  | idle => exact hwork
  | closed => exact hwork
  | lead probe =>
      have hpending : pending ≠ [] := hwork (.inr ⟨probe, rfl⟩)
      cases failed
      · exact fun _ => hpending
      · simp [HasWork, Search.answer]
  | left group => simp [HasWork, Search.answer]
  | right group leftFailed =>
      by_cases hguilty : (leftFailed || failed) = true
      · intro _
        simp only [Search.answer, if_pos hguilty]
        cases leftFailed <;> cases failed <;> simp_all [guiltyHalves]
      · simp only [HasWork, Search.answer, if_neg hguilty]
        split <;> simp
  | whole group =>
      cases failed
      · simp [HasWork, Search.answer]
      · cases pending <;> simp [HasWork, Search.answer]

/-! ## What is asked -/

/-- What a search asks about comes from its root. -/
theorem Within.question (hwithin : search.Within root) {live : List α}
    (hquestion : search.question cut = some live) : live.Sublist root := by
  obtain ⟨focus, pending, found, retries⟩ := search
  cases focus with
  | idle => simp [Search.question] at hquestion
  | closed => simp [Search.question] at hquestion
  | lead probe =>
      cases Option.some.inj hquestion
      exact hwithin.lead_sublist _ rfl
  | left group =>
      cases Option.some.inj hquestion
      exact (split_fst_sublist cut group).trans (hwithin.focus_sublist group (by simp [focusGroups]))
  | right group leftFailed =>
      cases Option.some.inj hquestion
      exact (split_snd_sublist cut group).trans (hwithin.focus_sublist group (by simp [focusGroups]))
  | whole group =>
      cases Option.some.inj hquestion
      exact hwithin.focus_sublist _ (by simp [focusGroups])

/-- A well-formed search asks about somebody, if its lead probe does. -/
theorem WellFormed.question_ne_nil (hwf : search.WellFormed limit)
    (hlead : ∀ probe, search.focus = .lead probe → probe ≠ []) {live : List α}
    (hquestion : search.question cut = some live) : live ≠ [] := by
  obtain ⟨focus, pending, found, retries⟩ := search
  cases focus with
  | idle => simp [Search.question] at hquestion
  | closed => simp [Search.question] at hquestion
  | lead probe =>
      cases Option.some.inj hquestion
      exact hlead _ rfl
  | left group =>
      cases Option.some.inj hquestion
      exact cut.left_ne_nil group (hwf.focus_two group (by simp [focusGroups]))
  | right group leftFailed =>
      cases Option.some.inj hquestion
      exact cut.right_ne_nil group (hwf.focus_two group (by simp [focusGroups]))
  | whole group =>
      cases Option.some.inj hquestion
      have hlen := hwf.focus_two live (by simp [focusGroups])
      exact List.ne_nil_of_length_pos (by omega)

end Search
end GroupTesting
end Library
end CoreCycler
