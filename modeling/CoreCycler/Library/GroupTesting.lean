import Mathlib.Tactic
import Mathlib.Data.List.Sort

/-!
# Adaptive group testing by splitting

A deterministic test answers whether a group fails.  `isolate` follows every
failing half of a failing group down to single members; a group that fails
while both of its halves pass is kept whole, because its failure needs members
of both.

The splitter is a parameter: any way of cutting a group of two or more into two
nonempty parts that append back to it.
-/

namespace CoreCycler
namespace Library
namespace GroupTesting

variable {α : Type*}

/-- A way of cutting every group of at least two members into two nonempty
parts, in order. -/
structure Splitter (α : Type*) where
  split : List α → List α × List α
  append_eq : ∀ group, (split group).1 ++ (split group).2 = group
  left_ne_nil : ∀ group, 2 ≤ group.length → (split group).1 ≠ []
  right_ne_nil : ∀ group, 2 ≤ group.length → (split group).2 ≠ []

namespace Splitter

variable (cut : Splitter α)

theorem length_add (group : List α) :
    (cut.split group).1.length + (cut.split group).2.length = group.length := by
  rw [← List.length_append, cut.append_eq]

theorem left_length_lt {group : List α} (hlen : 2 ≤ group.length) :
    (cut.split group).1.length < group.length := by
  have hadd := cut.length_add group
  have hright := List.length_pos_iff.mpr (cut.right_ne_nil group hlen)
  omega

theorem right_length_lt {group : List α} (hlen : 2 ≤ group.length) :
    (cut.split group).2.length < group.length := by
  have hadd := cut.length_add group
  have hleft := List.length_pos_iff.mpr (cut.left_ne_nil group hlen)
  omega

theorem left_sublist (group : List α) : (cut.split group).1.Sublist group := by
  conv_rhs => rw [← cut.append_eq group]
  exact List.sublist_append_left _ _

theorem right_sublist (group : List α) : (cut.split group).2.Sublist group := by
  conv_rhs => rw [← cut.append_eq group]
  exact List.sublist_append_right _ _

end Splitter

/-- The members a failing group's failure is traced to. -/
def isolate (cut : Splitter α) (fails : List α → Bool) (group : List α) : List α :=
  if _hlen : group.length ≤ 1 then
    group
  else if fails (cut.split group).1 || fails (cut.split group).2 then
    (if fails (cut.split group).1 then isolate cut fails (cut.split group).1 else []) ++
      (if fails (cut.split group).2 then isolate cut fails (cut.split group).2 else [])
  else
    group
termination_by group.length
decreasing_by
  · exact cut.left_length_lt (by omega)
  · exact cut.right_length_lt (by omega)

variable {cut : Splitter α} {fails : List α → Bool}

/-- A lone member is its own answer. -/
theorem isolate_of_length_le_one {group : List α} (hlen : group.length ≤ 1) :
    isolate cut fails group = group := by
  rw [isolate, dif_pos hlen]

/-- When some half fails, the answer is the answers of the failing halves. -/
theorem isolate_of_half {group : List α} (hlen : 2 ≤ group.length)
    (hhalf : (fails (cut.split group).1 || fails (cut.split group).2) = true) :
    isolate cut fails group =
      (if fails (cut.split group).1 then isolate cut fails (cut.split group).1 else []) ++
        (if fails (cut.split group).2 then
          isolate cut fails (cut.split group).2 else []) := by
  rw [isolate, dif_neg (by omega), if_pos hhalf]

/-- When both halves pass, the whole group is the answer. -/
theorem isolate_of_conjunction {group : List α}
    (hleft : fails (cut.split group).1 = false)
    (hright : fails (cut.split group).2 = false) :
    isolate cut fails group = group := by
  rw [isolate]
  split
  · rfl
  · simp [hleft, hright]

/-- Isolation only ever drops members, in order. -/
theorem isolate_sublist (group : List α) : (isolate cut fails group).Sublist group := by
  induction hn : group.length using Nat.strong_induction_on generalizing group with
  | _ n ih =>
      subst hn
      by_cases hlen : group.length ≤ 1
      · rw [isolate_of_length_le_one hlen]
      have htwo : 2 ≤ group.length := by omega
      by_cases hhalf : (fails (cut.split group).1 || fails (cut.split group).2) = true
      · rw [isolate_of_half htwo hhalf]
        conv_rhs => rw [← cut.append_eq group]
        apply List.Sublist.append
        · split
          · exact ih _ (cut.left_length_lt htwo) _ rfl
          · exact List.nil_sublist _
        · split
          · exact ih _ (cut.right_length_lt htwo) _ rfl
          · exact List.nil_sublist _
      · simp only [Bool.or_eq_true, not_or, Bool.not_eq_true] at hhalf
        rw [isolate_of_conjunction hhalf.1 hhalf.2]

/-- A failing group has a nonempty answer. -/
theorem isolate_ne_nil {group : List α} (hne : group ≠ []) :
    isolate cut fails group ≠ [] := by
  induction hn : group.length using Nat.strong_induction_on generalizing group with
  | _ n ih =>
      subst hn
      by_cases hlen : group.length ≤ 1
      · rwa [isolate_of_length_le_one hlen]
      have htwo : 2 ≤ group.length := by omega
      by_cases hleft : fails (cut.split group).1 = true
      · rw [isolate_of_half htwo (by simp [hleft]), if_pos hleft]
        have hpart := ih _ (cut.left_length_lt htwo) (cut.left_ne_nil group htwo) rfl
        simp [hpart]
      · by_cases hright : fails (cut.split group).2 = true
        · rw [isolate_of_half htwo (by simp [hright]), if_pos hright]
          have hpart := ih _ (cut.right_length_lt htwo) (cut.right_ne_nil group htwo) rfl
          simp [hpart]
        · rwa [isolate_of_conjunction (by simpa using hleft) (by simpa using hright)]

/-- **Independent culprits.**  When a group fails exactly if it holds a culprit,
isolating a failing group returns its culprits and nothing else. -/
theorem isolate_eq_filter {culprit : α → Bool} {group : List α}
    (htest : ∀ part, part.Sublist group → fails part = part.any culprit)
    (hfails : fails group = true) :
    isolate cut fails group = group.filter culprit := by
  induction hn : group.length using Nat.strong_induction_on generalizing group with
  | _ n ih =>
      subst hn
      by_cases hlen : group.length ≤ 1
      · rw [isolate_of_length_le_one hlen]
        rw [htest group (List.Sublist.refl _)] at hfails
        cases group with
        | nil => rfl
        | cons member others =>
            obtain rfl : others = [] := by simpa using hlen
            simp_all
      have htwo : 2 ≤ group.length := by omega
      have hpart : ∀ part, part.Sublist group → part.length < group.length →
          (if fails part then isolate cut fails part else []) = part.filter culprit := by
        intro part hsub hshort
        split
        · next hpartFails =>
            exact ih _ hshort (fun sub hsub' => htest sub (hsub'.trans hsub)) hpartFails rfl
        · next hpartPasses =>
            rw [htest part hsub] at hpartPasses
            symm
            simpa [List.filter_eq_nil_iff] using hpartPasses
      have hsome : (fails (cut.split group).1 || fails (cut.split group).2) = true := by
        rw [htest _ (cut.left_sublist group), htest _ (cut.right_sublist group),
          ← List.any_append, cut.append_eq, ← htest group (List.Sublist.refl _)]
        exact hfails
      rw [isolate_of_half htwo hsome,
        hpart _ (cut.left_sublist group) (cut.left_length_lt htwo),
        hpart _ (cut.right_sublist group) (cut.right_length_lt htwo),
        ← List.filter_append, cut.append_eq]

end GroupTesting
end Library
end CoreCycler
