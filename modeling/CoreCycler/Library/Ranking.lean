import Mathlib.Algebra.Order.Ring.Defs
import Mathlib.Data.List.Sort
import Mathlib.Tactic.Linarith

/-!
# Who stands out in a ranking

Candidates are ranked by a score, the highest first and earlier ones first among equals.
`Leads` says of a candidate in its place that it is ranked first (`exists_leads`).
`StandsOut` asks for a lead by a factor over everybody else, which a comparison of the first
two of the ranking tells (`standsOut_of_clear`, `clear_of_standsOut`).
-/

namespace CoreCycler
namespace Library
namespace Ranking

variable {α Score : Type*} [Field Score] [LinearOrder Score] [IsStrictOrderedRing Score]

/-- The candidates, the highest score first. -/
def ranked (score : α → Score) (candidates : List α) : List α :=
  candidates.insertionSort fun first second => score second ≤ score first

/-- The candidate between the others has the highest score, and no one before it has it. -/
def Leads (score : α → Score) (before : List α) (leader : α) (after : List α) : Prop :=
  (∀ other ∈ before, score other < score leader) ∧ ∀ other ∈ after, score other ≤ score leader

variable {score : α → Score} {candidates before after rest : List α} {leader : α}

omit [Field Score] [IsStrictOrderedRing Score] in
/-- The first of the ranking leads, and the others follow in it. -/
theorem exists_leads (hranked : ranked score candidates = leader :: rest) :
    ∃ before after, candidates = before ++ leader :: after ∧ Leads score before leader after ∧
      rest.Perm (before ++ after) := by
  induction candidates generalizing leader rest with
  | nil => exact absurd hranked (by simp [ranked])
  | cons candidate candidates ih =>
      have hcons : ranked score (candidate :: candidates) =
          (ranked score candidates).orderedInsert
            (fun first second => score second ≤ score first) candidate := rfl
      rw [hcons] at hranked
      cases htail : ranked score candidates with
      | nil =>
          rw [htail, List.orderedInsert_nil, List.cons.injEq] at hranked
          obtain ⟨rfl, rfl⟩ := hranked
          have hempty : candidates = [] := by
            have hlength := congrArg List.length htail
            rw [ranked, List.length_insertionSort] at hlength
            exact List.length_eq_zero_iff.mp hlength
          subst hempty
          exact ⟨[], [], rfl, ⟨by simp, by simp⟩, .refl _⟩
      | cons top others =>
          obtain ⟨before, after, hsplit, ⟨hbefore, hafter⟩, hperm⟩ := ih htail
          rw [htail, List.orderedInsert_cons] at hranked
          split at hranked
          -- The candidate goes in front of the leader so far, whom nobody exceeded.
          · rename_i hfirst
            obtain ⟨rfl, rfl⟩ := List.cons.inj hranked
            refine ⟨[], candidates, rfl, ⟨by simp, fun other hother => ?_⟩, ?_⟩
            · rw [hsplit, List.mem_append, List.mem_cons] at hother
              rcases hother with hmem | rfl | hmem
              · exact (hbefore other hmem).le.trans hfirst
              · exact hfirst
              · exact (hafter other hmem).trans hfirst
            · rw [List.nil_append, ← htail]
              exact List.perm_insertionSort _ _
          -- The leader stays, with one more candidate in front of it that it exceeds.
          · rename_i hlater
            obtain ⟨rfl, rfl⟩ := List.cons.inj hranked
            refine ⟨candidate :: before, after, by rw [hsplit]; rfl, ⟨?_, hafter⟩, ?_⟩
            · intro other hother
              rcases List.mem_cons.mp hother with rfl | hmem
              · exact lt_of_not_ge hlater
              · exact hbefore other hmem
            · exact (List.perm_orderedInsert _ _ _).trans (hperm.cons _)

omit [Field Score] [IsStrictOrderedRing Score] in
/-- There is one place to lead from. -/
theorem leads_unique {before₁ after₁ before₂ after₂ : List α} {first second : α}
    (hsame : before₁ ++ first :: after₁ = before₂ ++ second :: after₂)
    (hfirst : Leads score before₁ first after₁) (hsecond : Leads score before₂ second after₂) :
    before₁ = before₂ ∧ first = second ∧ after₁ = after₂ := by
  rcases List.append_eq_append_iff.mp hsame with ⟨middle, hfront, hback⟩ | ⟨middle, hfront, hback⟩
  · cases middle with
    | nil =>
        obtain ⟨rfl, rfl⟩ := List.cons.inj hback
        exact ⟨by simpa using hfront.symm, rfl, rfl⟩
    | cons candidate middle =>
        -- The first stands before the second, which leads it strictly.
        obtain ⟨rfl, rfl⟩ := List.cons.inj hback
        have hlt := hsecond.1 first (by rw [hfront]; simp)
        have hle := hfirst.2 second (by simp)
        exact absurd hlt (not_lt_of_ge hle)
  · cases middle with
    | nil =>
        obtain ⟨rfl, rfl⟩ := List.cons.inj hback
        exact ⟨by simpa using hfront, rfl, rfl⟩
    | cons candidate middle =>
        obtain ⟨rfl, rfl⟩ := List.cons.inj hback
        have hlt := hfirst.1 second (by rw [hfront]; simp)
        have hle := hsecond.2 first (by simp)
        exact absurd hlt (not_lt_of_ge hle)

/-- A leader with a positive score, and that by a factor over each of the others; there are
others. -/
def StandsOut (score : α → Score) (factor : Score) (before : List α) (leader : α)
    (after : List α) : Prop :=
  before ++ after ≠ [] ∧ 0 < score leader ∧ Leads score before leader after ∧
    ∀ other ∈ before ++ after, factor * score other ≤ score leader

/-- The comparison of the first two of the ranking. -/
def Clear (score : α → Score) (factor : Score) (first second : α) : Prop :=
  0 < score first ∧ ¬ (0 < score second ∧ score first < score second * factor)

/-- A clear winner stands out. -/
theorem standsOut_of_clear {factor : Score} (hfactor : 0 ≤ factor) {second : α}
    (hranked : ranked score candidates = leader :: second :: rest)
    (hclear : Clear score factor leader second) :
    ∃ before after, candidates = before ++ leader :: after ∧
      StandsOut score factor before leader after := by
  obtain ⟨before, after, hsplit, hleads, hperm⟩ := exists_leads hranked
  have hsorted : (leader :: second :: rest).Pairwise fun a b => score b ≤ score a := by
    rw [← hranked]
    exact List.pairwise_insertionSort _ _
  refine ⟨before, after, hsplit, ?_, hclear.1, hleads, fun other hother => ?_⟩
  · intro hempty
    rw [hempty] at hperm
    exact absurd hperm.length_eq (by simp)
  · have hle : score other ≤ score second := by
      rcases List.mem_cons.mp (hperm.mem_iff.mpr hother) with rfl | hmem
      · exact le_refl _
      · exact (List.pairwise_cons.mp (List.pairwise_cons.mp hsorted).2).1 other hmem
    have hscaled : factor * score other ≤ factor * score second :=
      mul_le_mul_of_nonneg_left hle hfactor
    rcases lt_or_ge 0 (score second) with hpositive | hnone
    · have hgap : score second * factor ≤ score leader := by
        by_contra hnot
        exact hclear.2 ⟨hpositive, lt_of_not_ge hnot⟩
      linarith [mul_comm factor (score second)]
    · have hzero : factor * score second ≤ 0 := mul_nonpos_of_nonneg_of_nonpos hfactor hnone
      linarith [hclear.1]

/-- Who stands out is the clear winner. -/
theorem clear_of_standsOut {factor : Score}
    (hsplit : candidates = before ++ leader :: after)
    (hstands : StandsOut score factor before leader after) :
    ∃ second rest, ranked score candidates = leader :: second :: rest ∧
      Clear score factor leader second := by
  obtain ⟨hothers, hpositive, hleads, hfactor⟩ := hstands
  cases hranked : ranked score candidates with
  | nil =>
      have hlength := congrArg List.length hranked
      rw [ranked, List.length_insertionSort, hsplit] at hlength
      exact absurd hlength (by simp)
  | cons top others =>
      obtain ⟨front, back, hplace, htop, hperm⟩ := exists_leads hranked
      obtain ⟨rfl, rfl, rfl⟩ := leads_unique (hsplit.symm.trans hplace) hleads htop
      cases others with
      | nil => exact absurd (List.nil_perm.mp hperm) hothers
      | cons second rest =>
          refine ⟨second, rest, rfl, hpositive, ?_⟩
          rintro ⟨-, hlt⟩
          have hle := hfactor second (hperm.mem_iff.mp List.mem_cons_self)
          linarith [mul_comm factor (score second)]

omit [IsStrictOrderedRing Score] in
/-- Scoring what candidates are changed into. -/
theorem standsOut_map {β : Type*} (change : α → β) (score : β → Score) (factor : Score)
    (before after : List α) (leader : α) :
    StandsOut score factor (before.map change) (change leader) (after.map change) ↔
      StandsOut (fun candidate => score (change candidate)) factor before leader after := by
  unfold StandsOut Leads
  rw [← List.map_append, ne_eq, List.map_eq_nil_iff]
  simp only [List.forall_mem_map]

end Ranking
end Library
end CoreCycler
