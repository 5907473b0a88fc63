import Mathlib.Data.List.Nodup
import Mathlib.Data.List.Induction
import Mathlib.Tactic.Common

/-!
# Grouping a list by a key

`group` collects the items of a list under their keys, in order of first appearance, the way
a dictionary filled with `setdefault(key, []).append(item)` does.  Each key has one group,
and a group is the sublist of the items with that key.
-/

namespace CoreCycler
namespace Library
namespace Grouping

variable {Item Key : Type*} [DecidableEq Key]

/-- Append an item to the group of its key, opened at the end if there is none. -/
def append (key : Key) (item : Item) : List (Key × List Item) → List (Key × List Item)
  | [] => [(key, [item])]
  | (other, members) :: rest =>
      if other = key then (other, members ++ [item]) :: rest
      else (other, members) :: append key item rest

/-- Collect the items under their keys. -/
def group (keyOf : Item → Key) (items : List Item) : List (Key × List Item) :=
  items.foldl (fun groups item => append (keyOf item) item groups) []

theorem keys_append (key : Key) (item : Item) (groups : List (Key × List Item)) :
    (append key item groups).map Prod.fst =
      if key ∈ groups.map Prod.fst then groups.map Prod.fst
      else groups.map Prod.fst ++ [key] := by
  induction groups with
  | nil => rfl
  | cons first rest ih =>
      obtain ⟨other, members⟩ := first
      rw [append]
      by_cases hother : other = key
      · simp [hother]
      · have hkey : ¬ key = other := fun h => hother h.symm
        simp only [if_neg hother, List.map_cons, ih, List.mem_cons, hkey, false_or]
        split_ifs <;> rfl

/-- With one group a key, appending changes the group of that key only. -/
theorem mem_append {key : Key} {item : Item} {groups : List (Key × List Item)}
    (hnodup : (groups.map Prod.fst).Nodup) {other : Key} {members : List Item} :
    (other, members) ∈ append key item groups ↔
      (other ≠ key ∧ (other, members) ∈ groups) ∨
      (other = key ∧ ∃ old, (old = [] ∧ key ∉ groups.map Prod.fst ∨ (key, old) ∈ groups) ∧
        members = old ++ [item]) := by
  induction groups with
  | nil => simp [append]
  | cons first rest ih =>
      obtain ⟨head, held⟩ := first
      have hrest : (rest.map Prod.fst).Nodup := (List.nodup_cons.mp hnodup).2
      have hfresh : head ∉ rest.map Prod.fst := (List.nodup_cons.mp hnodup).1
      have habsent : ∀ xs, (head, xs) ∉ rest := fun xs hmem =>
        hfresh (List.mem_map.mpr ⟨(head, xs), hmem, rfl⟩)
      rw [append]
      -- The item joins the first group under its key; the others stay as they are.
      by_cases hhead : head = key
      · subst hhead
        simp only [if_true, List.mem_cons, Prod.mk.injEq, List.map_cons]
        constructor
        · rintro (⟨rfl, rfl⟩ | hmem)
          · exact .inr ⟨rfl, held, .inr (.inl ⟨trivial, rfl⟩), rfl⟩
          · exact .inl ⟨fun h => habsent members (h ▸ hmem), .inr hmem⟩
        · rintro (⟨hne, ⟨rfl, -⟩ | hmem⟩ | ⟨rfl, old, hold, rfl⟩)
          · exact absurd rfl hne
          · exact .inr hmem
          · rcases hold with ⟨-, hnot⟩ | ⟨-, rfl⟩ | hmem
            · exact absurd (.inl trivial) hnot
            · exact .inl ⟨rfl, rfl⟩
            · exact absurd hmem (habsent old)
      · have hkey : ¬ key = head := fun h => hhead h.symm
        simp only [if_neg hhead, List.mem_cons, Prod.mk.injEq, ih hrest, List.map_cons, hkey,
          false_and, false_or]
        constructor
        · rintro (⟨rfl, rfl⟩ | ⟨hne, hmem⟩ | ⟨rfl, hold⟩)
          · exact .inl ⟨hhead, .inl ⟨rfl, rfl⟩⟩
          · exact .inl ⟨hne, .inr hmem⟩
          · exact .inr ⟨rfl, hold⟩
        · rintro (⟨hne, ⟨rfl, rfl⟩ | hmem⟩ | ⟨rfl, hold⟩)
          · exact .inl ⟨rfl, rfl⟩
          · exact .inr (.inl ⟨hne, hmem⟩)
          · exact .inr (.inr ⟨rfl, hold⟩)

theorem group_concat (keyOf : Item → Key) (items : List Item) (item : Item) :
    group keyOf (items ++ [item]) = append (keyOf item) item (group keyOf items) := by
  simp [group]

/-- Every key has one group. -/
theorem group_keys_nodup (keyOf : Item → Key) (items : List Item) :
    ((group keyOf items).map Prod.fst).Nodup := by
  induction items using List.reverseRecOn with
  | nil => exact List.nodup_nil
  | append_singleton items item ih =>
      rw [group_concat, keys_append]
      split_ifs with hmem
      · exact ih
      · simpa using ih.concat hmem

/-- The groups are the non-empty classes of the key. -/
theorem mem_group (keyOf : Item → Key) (items : List Item) {key : Key} {members : List Item} :
    (key, members) ∈ group keyOf items ↔
      members = items.filter (fun item => keyOf item = key) ∧ members ≠ [] := by
  induction items using List.reverseRecOn generalizing key members with
  | nil => simp only [group, List.foldl_nil, List.not_mem_nil, List.filter_nil, false_iff]; tauto
  | append_singleton items item ih =>
      rw [group_concat, mem_append (group_keys_nodup keyOf items), List.filter_append]
      by_cases hkey : key = keyOf item
      · subst hkey
        have hopen : keyOf item ∉ (group keyOf items).map Prod.fst ↔
            items.filter (fun other => keyOf other = keyOf item) = [] := by
          constructor
          · intro hnot
            by_contra hne
            exact hnot (List.mem_map.mpr ⟨_, ih.mpr ⟨rfl, hne⟩, rfl⟩)
          · intro hnil hmem
            obtain ⟨⟨-, old⟩, hold, rfl⟩ := List.mem_map.mp hmem
            obtain ⟨heq, hne⟩ := ih.mp hold
            exact hne (heq.trans hnil)
        simp only [ne_eq, not_true_eq_false, false_and, false_or, true_and, hopen, ih,
          List.filter_cons, decide_true, if_true, List.filter_nil]
        constructor
        · rintro ⟨old, ⟨rfl, hnil⟩ | ⟨rfl, -⟩, rfl⟩
          · exact ⟨by rw [hnil], by simp⟩
          · exact ⟨rfl, by simp⟩
        · rintro ⟨rfl, -⟩
          refine ⟨_, ?_, rfl⟩
          by_cases hnil : items.filter (fun other => keyOf other = keyOf item) = []
          · exact .inl ⟨hnil, hnil⟩
          · exact .inr ⟨rfl, hnil⟩
      · have hother : ¬ keyOf item = key := fun h => hkey h.symm
        simp [hkey, hother, ih]

/-- A dictionary returns the entry it holds under a key if there is no other one. -/
theorem lookup_of_unique {entries : List (Key × Item)} {key : Key} {item : Item}
    (hmem : (key, item) ∈ entries)
    (hunique : ∀ other, (key, other) ∈ entries → other = item) :
    entries.lookup key = some item := by
  induction entries with
  | nil => simp at hmem
  | cons first rest ih =>
      obtain ⟨head, held⟩ := first
      by_cases hhead : key = head
      · subst hhead
        simp [hunique held List.mem_cons_self]
      · have hne : (key == head) = false := beq_eq_false_iff_ne.mpr hhead
        rcases List.mem_cons.mp hmem with heq | hin
        · exact absurd (congrArg Prod.fst heq) hhead
        · rw [List.lookup_cons, hne]
          exact ih hin fun other hother => hunique other (List.mem_cons_of_mem _ hother)

/-- A dictionary with distinct keys returns the entry it holds. -/
theorem lookup_of_mem {entries : List (Key × Item)} (hnodup : (entries.map Prod.fst).Nodup)
    {key : Key} {item : Item} (hmem : (key, item) ∈ entries) :
    entries.lookup key = some item :=
  lookup_of_unique hmem fun _ hother =>
    (Prod.ext_iff.mp (List.inj_on_of_nodup_map hnodup hother hmem rfl)).2

/-- A lookup returns an entry of the dictionary. -/
theorem mem_of_lookup {entries : List (Key × Item)} {key : Key} {item : Item}
    (hlookup : entries.lookup key = some item) : (key, item) ∈ entries := by
  obtain ⟨before, behind, rfl, -⟩ := List.lookup_eq_some_iff.mp hlookup
  simp

section Zip

variable {Place : Type*} {items : List Item} {places : List Place}

/-- Distinct items have one place each. -/
theorem zip_place_unique (hnodup : items.Nodup) {item : Item} {place other : Place}
    (hplace : (item, place) ∈ items.zip places) (hother : (item, other) ∈ items.zip places) :
    place = other := by
  obtain ⟨i, hi, hentry⟩ := List.mem_iff_getElem.mp hplace
  obtain ⟨j, hj, hentry'⟩ := List.mem_iff_getElem.mp hother
  rw [List.getElem_zip] at hentry hentry'
  cases hentry
  obtain ⟨hitem, rfl⟩ := Prod.ext_iff.mp hentry'
  have hij : j = i := (List.Nodup.getElem_inj_iff hnodup).mp hitem
  subst hij
  rfl

/-- Distinct places hold one item each. -/
theorem zip_item_unique (hnodup : places.Nodup) {item other : Item} {place : Place}
    (hplace : (item, place) ∈ items.zip places) (hother : (other, place) ∈ items.zip places) :
    item = other := by
  obtain ⟨i, hi, hentry⟩ := List.mem_iff_getElem.mp hplace
  obtain ⟨j, hj, hentry'⟩ := List.mem_iff_getElem.mp hother
  rw [List.getElem_zip] at hentry hentry'
  cases hentry
  obtain ⟨rfl, hsame⟩ := Prod.ext_iff.mp hentry'
  have hij : j = i := (List.Nodup.getElem_inj_iff hnodup).mp hsame
  subst hij
  rfl

end Zip

end Grouping
end Library
end CoreCycler
