import Mathlib.Order.Lattice
import Mathlib.Order.Basic
import Mathlib.Data.List.MinMax
import Mathlib.Tactic.Common

/-!
# High-water marks over a one-row store

A value is written before it is tried out, and settles once the trial has gone
well.  Memory keeps the highest settled value as a mark.  The store keeps the last
value written only, with a flag whether it lies within the mark: it is all that is
left when the mark is rebuilt after a restart.

`Sound` relates store, mark and history over every run whose restarts find the store
still holding the mark (`Kept`), and `Sound.reopened_iff` says that these are exactly
the restarts that rebuild it.
-/

namespace CoreCycler
namespace Library
namespace Watermark

variable {α : Type*} [LinearOrder α]

/-- A store and a mark, next to the history of settled values. -/
structure State (α : Type*) where
  /-- The last value written, and whether it lies within the mark. -/
  row : Option (α × Bool)
  mark : α
  settled : List α

namespace State

/-- Write a value down before trying it out. -/
def write (state : State α) (value : α) : State α :=
  { state with row := some (value, decide (value ≤ state.mark)) }

/-- The value on the row went well. -/
def settle (state : State α) : State α :=
  match state.row with
  | none => state
  | some (value, _) =>
      { row := some (value, true)
        mark := max state.mark value
        settled := value :: state.settled }

theorem settle_of_none (state : State α) (hrow : state.row = none) : state.settle = state := by
  simp [settle, hrow]

theorem settle_of_some (state : State α) {value : α} {within : Bool}
    (hrow : state.row = some (value, within)) :
    state.settle =
      { row := some (value, true)
        mark := max state.mark value
        settled := value :: state.settled } := by
  simp [settle, hrow]

/-- The mark a restart rebuilds. -/
def reopened (floor : α) (state : State α) : α :=
  match state.row with
  | some (value, true) => value
  | _ => floor

def reopen (floor : α) (state : State α) : State α :=
  { state with mark := state.reopened floor }

/-- The highest value ever settled. -/
def highest (floor : α) (state : State α) : α := state.settled.max?.getD floor

/-- The row still holds the highest settled value, or nothing but an untried value above
the floor has been written since the floor was highest. -/
def Kept (floor : α) (state : State α) : Prop :=
  ∀ entry, state.row = some entry →
    entry.1 = state.highest floor ∨ state.highest floor = floor ∧ floor < entry.1

end State

/-- Store, mark and history fit together. -/
structure Sound (floor : α) (state : State α) : Prop where
  bound : ∀ value ∈ state.settled, value ≤ state.mark
  attained : state.mark = floor ∨ state.mark ∈ state.settled
  within : ∀ value, state.row = some (value, true) → value ≤ state.mark
  beyond : ∀ value, state.row = some (value, false) → state.mark < value
  unwritten : state.row = none → state.settled = []

section Highest

variable {floor : α} {state : State α}

theorem le_highest {value : α} (hvalue : value ∈ state.settled) :
    value ≤ state.highest floor := by
  cases hmax : state.settled.max? with
  | none =>
      rw [List.max?_eq_none_iff] at hmax
      simp [hmax] at hvalue
  | some top =>
      rw [State.highest, hmax, Option.getD_some]
      exact (List.max?_eq_some_iff.mp hmax).2 value hvalue

theorem highest_mem (hne : state.settled ≠ []) : state.highest floor ∈ state.settled := by
  cases hmax : state.settled.max? with
  | none => exact absurd (List.max?_eq_none_iff.mp hmax) hne
  | some top =>
      rw [State.highest, hmax, Option.getD_some]
      exact (List.max?_eq_some_iff.mp hmax).1

theorem highest_of_nil (hnil : state.settled = []) : state.highest floor = floor := by
  simp [State.highest, hnil]

end Highest

namespace Sound

variable {floor : α} {state : State α}

theorem fresh (floor : α) : Sound floor { row := none, mark := floor, settled := [] } :=
  ⟨by simp, .inl rfl, by simp, by simp, by simp⟩

theorem write (hsound : Sound floor state) (value : α) : Sound floor (state.write value) := by
  refine ⟨hsound.bound, hsound.attained, ?_, ?_, by simp [State.write]⟩
  · rintro other hrow
    simp only [State.write, Option.some.injEq, Prod.mk.injEq, decide_eq_true_eq] at hrow
    exact hrow.1 ▸ hrow.2
  · rintro other hrow
    simp only [State.write, Option.some.injEq, Prod.mk.injEq, decide_eq_false_iff_not,
      not_le] at hrow
    exact hrow.1 ▸ hrow.2

theorem settle (hsound : Sound floor state) : Sound floor state.settle := by
  cases hrow : state.row with
  | none => rwa [state.settle_of_none hrow]
  | some entry =>
      obtain ⟨value, within⟩ := entry
      rw [state.settle_of_some hrow]
      refine ⟨?_, ?_, ?_, by simp, by simp⟩
      · intro other hother
        rcases List.mem_cons.mp hother with rfl | hold
        · exact le_max_right _ _
        · exact (hsound.bound other hold).trans (le_max_left _ _)
      · rcases le_total value state.mark with hle | hle
        · rw [max_eq_left hle]
          exact hsound.attained.imp_right (List.mem_cons_of_mem _)
        · rw [max_eq_right hle]
          exact .inr List.mem_cons_self
      · intro other hother
        obtain rfl : value = other := by simpa using hother
        exact le_max_right _ _

/-- Where nothing settled above the floor, the mark is the floor or settled at it. -/
theorem mark_eq_highest_or (hsound : Sound floor state) :
    state.mark = floor ∨ state.mark = state.highest floor := by
  rcases hsound.attained with hfloor | hmem
  · exact .inl hfloor
  · have hne : state.settled ≠ [] := List.ne_nil_of_mem hmem
    exact .inr (le_antisymm (le_highest hmem) (hsound.bound _ (highest_mem hne)))

theorem highest_le (hsound : Sound floor state) (hne : state.settled ≠ []) :
    state.highest floor ≤ state.mark :=
  hsound.bound _ (highest_mem hne)

/-- **What a restart rebuilds** is the highest settled value exactly when the row was
kept. -/
theorem reopened_iff (hsound : Sound floor state) :
    state.reopened floor = state.highest floor ↔ state.Kept floor := by
  cases hrow : state.row with
  | none => simp [State.reopened, State.Kept, hrow, highest_of_nil (hsound.unwritten hrow)]
  | some entry =>
      obtain ⟨value, within⟩ := entry
      simp only [State.Kept, State.reopened, hrow, Option.some.injEq, forall_eq']
      cases within with
      | true =>
          refine ⟨.inl, fun hkept => hkept.elim id fun habove => ?_⟩
          -- The mark reaches `value`, so something beyond the floor settled.
          obtain ⟨hhighest, hfloor⟩ := habove
          have hmark : floor < state.mark := hfloor.trans_le (hsound.within value hrow)
          rcases hsound.mark_eq_highest_or with heq | heq
          · exact absurd heq hmark.ne'
          · exact absurd (heq.trans hhighest) hmark.ne'
      | false =>
          have hbeyond : state.mark < value := hsound.beyond value hrow
          constructor
          · intro hfloor
            have hhighest : state.highest floor = floor := hfloor.symm
            rcases hsound.mark_eq_highest_or with heq | heq
            · exact .inr ⟨hhighest, heq ▸ hbeyond⟩
            · exact .inr ⟨hhighest, hhighest ▸ heq ▸ hbeyond⟩
          · rintro (hvalue | ⟨hhighest, -⟩)
            · have hnil : state.settled = [] := by
                by_contra hne
                exact absurd (hvalue ▸ hsound.highest_le hne) hbeyond.not_ge
              exact (highest_of_nil hnil).symm
            · exact hhighest.symm

theorem reopen (hsound : Sound floor state) (hkept : state.Kept floor) :
    Sound floor (state.reopen floor) := by
  have hhighest : state.reopened floor = state.highest floor := hsound.reopened_iff.mpr hkept
  refine ⟨?_, ?_, ?_, ?_, hsound.unwritten⟩
  · intro value hvalue
    exact (le_highest hvalue).trans hhighest.ge
  · by_cases hnil : state.settled = []
    · exact .inl (hhighest.trans (highest_of_nil hnil))
    · exact .inr (by simpa [State.reopen, hhighest] using highest_mem hnil)
  · intro value hrow
    have hvalue : state.reopened floor = value := by
      rw [State.reopened, show state.row = some (value, true) from hrow]
    exact hvalue.ge
  · intro value hrow
    have hrow : state.row = some (value, false) := hrow
    have hfloor : state.reopened floor = floor := by rw [State.reopened, hrow]
    have hmark : state.mark = floor := by
      rcases hsound.mark_eq_highest_or with heq | heq
      · exact heq
      · rw [heq, ← hhighest, hfloor]
    calc state.reopened floor = floor := hfloor
      _ = state.mark := hmark.symm
      _ < value := hsound.beyond value hrow

end Sound

end Watermark
end Library
end CoreCycler
