import Mathlib.Data.List.Basic
import Mathlib.Data.List.Nodup
import Mathlib.Data.List.Perm.Subperm

/-!
# Checklists with a cursor

A checklist is worked off in some order of its items, and a cursor counts how many
of them are done.  The order may be thrown away and derived again from a record of
what was done: `firstDistinct` recovers as many items as the cursor counts, and
the open ones follow behind them.  An order whose items before the cursor are all
earned is worked off once its last item is.
-/

namespace CoreCycler
namespace Library
namespace Checklist

variable {Item Entry : Type*} [DecidableEq Item]

/-- Scan a record for items, keeping the first `count` different ones. -/
def firstDistinct (key : Entry → Option Item) (count : Nat) :
    List Entry → List Item → List Item
  | [], found => found
  | entry :: entries, found =>
      match key entry with
      | none => firstDistinct key count entries found
      | some item =>
          if item ∈ found then
            firstDistinct key count entries found
          else if (found ++ [item]).length = count then
            found ++ [item]
          else
            firstDistinct key count entries (found ++ [item])

section Scan

variable {key : Entry → Option Item} {count : Nat}

/-- A scan never keeps an item twice. -/
theorem firstDistinct_nodup (entries : List Entry) :
    ∀ {found : List Item}, found.Nodup → (firstDistinct key count entries found).Nodup := by
  induction entries with
  | nil => exact fun hfound => hfound
  | cons entry entries ih =>
      intro found hfound
      rw [firstDistinct]
      cases key entry with
      | none => exact ih hfound
      | some item =>
          by_cases hmem : item ∈ found
          · simpa only [if_pos hmem] using ih hfound
          · have hgrown : (found ++ [item]).Nodup := by
              simpa using hfound.concat hmem
            simp only [if_neg hmem]
            split_ifs
            · exact hgrown
            · exact ih hgrown

/-- A scan keeps only keys of the record. -/
theorem mem_firstDistinct (entries : List Entry) :
    ∀ {found : List Item} {item : Item}, item ∈ firstDistinct key count entries found →
      item ∈ found ∨ ∃ entry ∈ entries, key entry = some item := by
  induction entries with
  | nil => exact fun hmem => .inl hmem
  | cons entry entries ih =>
      intro found item hmem
      rw [firstDistinct] at hmem
      cases hkey : key entry with
      | none =>
          simp only [hkey] at hmem
          exact (ih hmem).imp_right fun ⟨other, hin, hother⟩ =>
            ⟨other, List.mem_cons_of_mem _ hin, hother⟩
      | some fresh =>
          have hgrown : item ∈ found ++ [fresh] →
              item ∈ found ∨ ∃ other ∈ entry :: entries, key other = some item := by
            intro hin
            rcases List.mem_append.mp hin with hold | hnew
            · exact .inl hold
            · obtain rfl := List.mem_singleton.mp hnew
              exact .inr ⟨entry, List.mem_cons_self, hkey⟩
          simp only [hkey] at hmem
          split_ifs at hmem
          · exact (ih hmem).imp_right fun ⟨other, hin, hother⟩ =>
              ⟨other, List.mem_cons_of_mem _ hin, hother⟩
          · exact hgrown hmem
          · rcases ih hmem with hin | ⟨other, hin, hother⟩
            · exact hgrown hin
            · exact .inr ⟨other, List.mem_cons_of_mem _ hin, hother⟩

/-- A scan that finds enough items in the recent part of a record stops there. -/
theorem firstDistinct_of_recent (older : List Entry) {items : List Item} (hnodup : items.Nodup)
    (hlength : items.length = count) (recent : List Entry) :
    ∀ {found : List Item}, found.length < count →
      (∀ item ∈ items, item ∈ found ∨ ∃ entry ∈ recent, key entry = some item) →
      (firstDistinct key count recent found).length = count ∧
        firstDistinct key count (recent ++ older) found =
          firstDistinct key count recent found := by
  induction recent with
  | nil =>
      intro found hshort hitems
      have hsub : items ⊆ found := fun item hitem => by simpa using hitems item hitem
      have hle := (List.subperm_of_subset hnodup hsub).length_le
      omega
  | cons entry recent ih =>
      intro found hshort hitems
      rw [List.cons_append, firstDistinct, firstDistinct]
      cases hkey : key entry with
      | none =>
          refine ih hshort fun item hitem => ?_
          simpa [hkey] using hitems item hitem
      | some fresh =>
          -- What was to be found is found already, or still ahead.
          have hcarry : ∀ {kept : List Item}, found ⊆ kept → fresh ∈ kept →
              ∀ item ∈ items, item ∈ kept ∨ ∃ other ∈ recent, key other = some item := by
            intro kept hkept hfresh item hitem
            rcases hitems item hitem with hfound | ⟨other, hother, hname⟩
            · exact .inl (hkept hfound)
            · rcases List.mem_cons.mp hother with rfl | hrest
              · rw [hkey, Option.some.injEq] at hname
                exact .inl (hname ▸ hfresh)
              · exact .inr ⟨other, hrest, hname⟩
          by_cases hmem : fresh ∈ found
          · simpa only [if_pos hmem] using ih hshort (hcarry (List.Subset.refl _) hmem)
          · by_cases hfull : (found ++ [fresh]).length = count
            · simp only [if_neg hmem, if_pos hfull]
              exact ⟨hfull, trivial⟩
            · have hroom : (found ++ [fresh]).length < count := by
                simp only [List.length_append, List.length_singleton] at hfull ⊢
                omega
              simpa only [if_neg hmem, if_neg hfull] using
                ih hroom (hcarry (List.subset_append_left _ _) (by simp))

end Scan

/-! ## Orders and the cursor -/

/-- An order of the required items. -/
structure IsOrder (required order : List Item) : Prop where
  nodup : order.Nodup
  mem_iff : ∀ item, item ∈ order ↔ item ∈ required

/-- The items an order has before its cursor are earned. -/
def Earned (earned : Item → Prop) (cursor : Nat) (order : List Item) : Prop :=
  ∀ item ∈ order.take cursor, earned item

/-- As many different required items are earned as the cursor counts. -/
def Banked (earned : Item → Prop) (required : List Item) (cursor : Nat) : Prop :=
  ∃ items : List Item, items.Nodup ∧ items.length = cursor ∧
    ∀ item ∈ items, item ∈ required ∧ earned item

section Cursor

variable {earned : Item → Prop} {required order : List Item} {cursor : Nat}

omit [DecidableEq Item] in
@[simp] theorem earned_zero : Earned earned 0 order := by
  simp [Earned]

omit [DecidableEq Item] in
@[simp] theorem banked_zero : Banked earned required 0 :=
  ⟨[], List.nodup_nil, rfl, by simp⟩

omit [DecidableEq Item] in
theorem Earned.mono {other : Item → Prop} (hearned : Earned earned cursor order)
    (hmono : ∀ item, earned item → other item) : Earned other cursor order :=
  fun item hitem => hmono item (hearned item hitem)

omit [DecidableEq Item] in
theorem Banked.mono {other : Item → Prop} (hbanked : Banked earned required cursor)
    (hmono : ∀ item, earned item → other item) : Banked other required cursor := by
  obtain ⟨items, hnodup, hlength, hitems⟩ := hbanked
  exact ⟨items, hnodup, hlength, fun item hitem =>
    ⟨(hitems item hitem).1, hmono item (hitems item hitem).2⟩⟩

omit [DecidableEq Item] in
/-- Earning the item at the cursor moves the cursor on. -/
theorem Earned.next (hearned : Earned earned cursor order) {item : Item}
    (hitem : order[cursor]? = some item) (hnow : earned item) :
    Earned earned (cursor + 1) order := by
  intro other hother
  rw [List.take_add_one, hitem] at hother
  rcases List.mem_append.mp hother with hbefore | hlast
  · exact hearned other hbefore
  · obtain rfl : other = item := by simpa using hlast
    exact hnow

omit [DecidableEq Item] in
theorem Earned.banked (horder : IsOrder required order) (hearned : Earned earned cursor order)
    (hcursor : cursor ≤ order.length) : Banked earned required cursor :=
  ⟨order.take cursor, horder.nodup.sublist (List.take_sublist _ _),
    List.length_take_of_le hcursor,
    fun item hitem => ⟨(horder.mem_iff item).mp (List.mem_of_mem_take hitem), hearned item hitem⟩⟩

omit [DecidableEq Item] in
/-- An order worked off to its end leaves no required item open. -/
theorem Earned.complete (horder : IsOrder required order) (hearned : Earned earned cursor order)
    (hend : order.length ≤ cursor) : ∀ item ∈ required, earned item := by
  intro item hitem
  have hmem := (horder.mem_iff item).mpr hitem
  rw [← List.take_of_length_le hend] at hmem
  exact hearned item hmem

end Cursor

/-! ## Deriving an order again -/

section Resume

variable {key : Entry → Option Item} {required rest : List Item} {cursor : Nat}

/-- The done items of a record followed by the open ones are an order. -/
theorem isOrder_resumed (record : List Entry)
    (hkey : ∀ entry item, key entry = some item → item ∈ required) (hnodup : rest.Nodup)
    (hrest : ∀ item, item ∈ rest ↔
      item ∈ required ∧ item ∉ (firstDistinct key cursor record []).reverse) :
    IsOrder required ((firstDistinct key cursor record []).reverse ++ rest) := by
  have hdone : ∀ item ∈ (firstDistinct key cursor record []).reverse, item ∈ required := by
    intro item hitem
    rcases mem_firstDistinct record (List.mem_reverse.mp hitem) with hnil | ⟨entry, -, hname⟩
    · cases hnil
    · exact hkey entry item hname
  constructor
  · refine List.Nodup.append (List.nodup_reverse.mpr (firstDistinct_nodup record List.nodup_nil))
      hnodup fun item hfound hopen => ((hrest item).mp hopen).2 hfound
  · intro item
    rw [List.mem_append, hrest]
    constructor
    · rintro (hfound | ⟨hitem, -⟩)
      · exact hdone item hfound
      · exact hitem
    · intro hitem
      by_cases hfound : item ∈ (firstDistinct key cursor record []).reverse
      · exact .inl hfound
      · exact .inr ⟨hitem, hfound⟩

/-- When the recent part of the record earns as many items as the cursor counts, the
order derived again has earned items before its cursor. -/
theorem earned_resumed {earned : Item → Prop} (recent older : List Entry)
    (hbanked : Banked earned required cursor)
    (hrecent : ∀ item, earned item → item ∈ required → ∃ entry ∈ recent, key entry = some item)
    (hkey : ∀ entry ∈ recent, ∀ item, key entry = some item → earned item) :
    Earned earned cursor ((firstDistinct key cursor (recent ++ older) []).reverse ++ rest) := by
  rcases Nat.eq_zero_or_pos cursor with rfl | hpos
  · exact earned_zero
  obtain ⟨items, hnodup, hlength, hitems⟩ := hbanked
  have hshort : ([] : List Item).length < cursor := hpos
  have hfound : ∀ item ∈ items, item ∈ [] ∨ ∃ entry ∈ recent, key entry = some item :=
    fun item hitem => .inr (hrecent item (hitems item hitem).2 (hitems item hitem).1)
  obtain ⟨hfull, hscan⟩ :=
    firstDistinct_of_recent older hnodup hlength recent hshort hfound
  intro item hitem
  rw [hscan, List.take_left' (by simpa using hfull), List.mem_reverse] at hitem
  rcases mem_firstDistinct recent hitem with hnil | ⟨entry, hentry, hname⟩
  · cases hnil
  · exact hkey entry hentry item hname

end Resume

end Checklist
end Library
end CoreCycler
