import Mathlib.Data.List.Sort
import Mathlib.Tactic.Ring

/-!
# Rotation by position

A rotation over an ascending list serves the first item above its cursor, and starts again
with the first one when there is none.  The cursor need not be an item of the list: it marks
a position, so that the rotation goes on where an item has left.

A sequence that `Rotates` serves each time the item after the one it served last.  It serves
every item once in each round (`Rotates.serves_all`), whatever its first cursor was.
-/

namespace CoreCycler
namespace Library
namespace Rotation

variable {α : Type*} [LinearOrder α]

/-- The item to serve after the cursor. -/
def next (items : List α) : Option α → Option α
  | none => items.head?
  | some last => (items.find? fun item => decide (last < item)).or items.head?

/-- Each item served is the next one after the item served before. -/
structure Rotates (items : List α) (served : ℕ → Option α) : Prop where
  first : ∃ cursor, served 0 = next items cursor
  later : ∀ n, served (n + 1) = next items (served n)

variable {items : List α} {served : ℕ → Option α} {cursor : Option α} {item : α}

theorem mem_of_next (hnext : next items cursor = some item) : item ∈ items := by
  cases cursor with
  | none => exact List.mem_of_head? hnext
  | some last =>
      rw [next, Option.or_eq_some_iff] at hnext
      obtain hafter | ⟨-, hhead⟩ := hnext
      · exact List.mem_of_find?_eq_some hafter
      · exact List.mem_of_head? hhead

theorem exists_next (hitems : items ≠ []) (cursor : Option α) :
    ∃ item, next items cursor = some item := by
  obtain ⟨head, rest, rfl⟩ := List.exists_cons_of_ne_nil hitems
  cases cursor with
  | none => exact ⟨head, rfl⟩
  | some last =>
      cases hafter : (head :: rest).find? fun item => decide (last < item) with
      | none => exact ⟨head, by rw [next, hafter]; rfl⟩
      | some item => exact ⟨item, by rw [next, hafter]; rfl⟩

/-- A single item is served again and again. -/
theorem next_singleton (item : α) (cursor : Option α) : next [item] cursor = some item := by
  obtain ⟨served, hnext⟩ := exists_next (List.cons_ne_nil item []) cursor
  have hmem := mem_of_next hnext
  rw [List.mem_singleton] at hmem
  rw [hnext, hmem]

/-- After the item of one position comes the item of the next position, around the end. -/
theorem next_getElem (hsorted : items.Pairwise (· < ·)) {position : ℕ}
    (hposition : position < items.length) :
    next items (some items[position]) = items[(position + 1) % items.length]? := by
  have hstrict := List.pairwise_iff_getElem.mp hsorted
  have hupTo (index : ℕ) (hindex : index < items.length) (hle : index ≤ position) :
      items[index] ≤ items[position] := by
    rcases hle.lt_or_eq with hlt | rfl
    · exact (hstrict index position hindex hposition hlt).le
    · exact le_rfl
  by_cases hlast : position + 1 < items.length
  · have hafter : items.find? (fun item => decide (items[position] < item)) =
        some items[position + 1] := by
      rw [List.find?_eq_some_iff_getElem]
      refine ⟨decide_eq_true (hstrict position (position + 1) hposition hlast (by omega)),
        position + 1, hlast, rfl, fun index hindex => ?_⟩
      rw [Bool.not_eq_true', decide_eq_false_iff_not]
      exact not_lt.mpr (hupTo index (by omega) (by omega))
    rw [next, hafter, Nat.mod_eq_of_lt hlast, List.getElem?_eq_getElem hlast]
    rfl
  · have hround : position + 1 = items.length := by omega
    have hafter : items.find? (fun item => decide (items[position] < item)) = none := by
      rw [List.find?_eq_none]
      intro item hitem
      obtain ⟨index, hindex, rfl⟩ := List.getElem_of_mem hitem
      rw [decide_eq_true_eq]
      exact not_lt.mpr (hupTo index hindex (by omega))
    rw [next, hafter, Option.none_or, hround, Nat.mod_self, List.head?_eq_getElem?]

/-- A rotation goes through the positions one after the other. -/
theorem Rotates.exists_position (hrotates : Rotates items served)
    (hsorted : items.Pairwise (· < ·)) (hitems : items ≠ []) :
    ∃ position, ∀ n, served n = items[(position + n) % items.length]? := by
  have hlength : 0 < items.length := List.length_pos_iff.mpr hitems
  obtain ⟨cursor, hfirst⟩ := hrotates.first
  obtain ⟨item, hnext⟩ := exists_next hitems cursor
  obtain ⟨position, hposition, rfl⟩ := List.getElem_of_mem (mem_of_next hnext)
  refine ⟨position, fun n => ?_⟩
  induction n with
  | zero =>
      rw [hfirst, hnext, Nat.add_zero, Nat.mod_eq_of_lt hposition,
        List.getElem?_eq_getElem hposition]
  | succ n ih =>
      have hbefore : (position + n) % items.length < items.length := Nat.mod_lt _ hlength
      rw [hrotates.later, ih, List.getElem?_eq_getElem hbefore, next_getElem hsorted hbefore,
        Nat.mod_add_mod, Nat.add_assoc]

/-- A rotation serves every item within one round. -/
theorem Rotates.serves_all (hrotates : Rotates items served)
    (hsorted : items.Pairwise (· < ·)) (hitem : item ∈ items) :
    ∃ n < items.length, served n = some item := by
  have hitems : items ≠ [] := List.ne_nil_of_mem hitem
  have hlength : 0 < items.length := List.length_pos_iff.mpr hitems
  obtain ⟨position, hserved⟩ := hrotates.exists_position hsorted hitems
  obtain ⟨target, htarget, rfl⟩ := List.getElem_of_mem hitem
  -- the distance from the position of the first item served, around the end
  have hstart : position % items.length < items.length := Nat.mod_lt _ hlength
  refine ⟨(target + (items.length - position % items.length)) % items.length,
    Nat.mod_lt _ hlength, ?_⟩
  have hreached : (position + (target + (items.length - position % items.length)) %
      items.length) % items.length = target := by
    calc (position + (target + (items.length - position % items.length)) % items.length) %
            items.length
        = (position % items.length + (target + (items.length - position % items.length))) %
            items.length := by rw [Nat.add_mod_mod, ← Nat.mod_add_mod]
      _ = (target + items.length) % items.length := by congr 1; omega
      _ = target := by rw [Nat.add_mod_right, Nat.mod_eq_of_lt htarget]
  rw [hserved, hreached, List.getElem?_eq_getElem htarget]

/-- What a rotation serves from some time on is a rotation. -/
theorem Rotates.drop (hrotates : Rotates items served) (start : ℕ) :
    Rotates items fun n => served (start + n) where
  first := by
    cases start with
    | zero => exact hrotates.first
    | succ start => exact ⟨served start, hrotates.later start⟩
  later n := hrotates.later (start + n)

end Rotation
end Library
end CoreCycler
