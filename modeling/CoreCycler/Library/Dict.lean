import Mathlib.Data.List.Induction
import Mathlib.Data.List.Nodup
import Mathlib.Data.List.Perm.Basic
import Mathlib.Tactic.Common

/-!
# Dictionaries in the order of insertion

A dictionary has one value under each key.  A value set under a key that it has replaces the old
one in its place, and a new key comes last.
-/

namespace CoreCycler
namespace Library

structure Dict (Key Value : Type*) where
  entries : List (Key × Value)
  distinct : (entries.map Prod.fst).Nodup

namespace Dict

variable {Key Value Item : Type*} [DecidableEq Key]

def keys (dict : Dict Key Value) : List Key := dict.entries.map Prod.fst

def values (dict : Dict Key Value) : List Value := dict.entries.map Prod.snd

def empty : Dict Key Value := ⟨[], List.nodup_nil⟩

def get (dict : Dict Key Value) (key : Key) : Option Value :=
  (dict.entries.find? fun entry => entry.1 = key).map Prod.snd

/-- Replace the value of a key in its place. -/
def replace (key : Key) (value : Value) (entry : Key × Value) : Key × Value :=
  (entry.1, if entry.1 = key then value else entry.2)

theorem keys_replace (key : Key) (value : Value) (entries : List (Key × Value)) :
    (entries.map (replace key value)).map Prod.fst = entries.map Prod.fst := by
  rw [List.map_map]
  rfl

/-- Assign the value of a key (`dict[key] = value`). -/
def set (dict : Dict Key Value) (key : Key) (value : Value) : Dict Key Value :=
  if hkey : key ∈ dict.keys then
    ⟨dict.entries.map (replace key value), by
      rw [keys_replace]
      exact dict.distinct⟩
  else
    ⟨dict.entries ++ [(key, value)], by
      rw [List.map_append]
      exact List.concat_eq_append ▸ List.Nodup.concat hkey dict.distinct⟩

/-- The value of a key is what the entries have under it. -/
theorem get_eq_some {dict : Dict Key Value} {key : Key} {value : Value} :
    dict.get key = some value ↔ (key, value) ∈ dict.entries := by
  unfold get
  constructor
  · intro hget
    obtain ⟨entry, hfind, rfl⟩ := Option.map_eq_some_iff.mp hget
    have hkey : entry.1 = key := by simpa using List.find?_some hfind
    rw [← hkey]
    exact List.mem_of_find?_eq_some hfind
  · intro hentry
    have hsome : (dict.entries.find? fun entry => entry.1 = key).isSome :=
      List.find?_isSome.mpr ⟨_, hentry, by simp⟩
    obtain ⟨entry, hfind⟩ := Option.isSome_iff_exists.mp hsome
    have hkey : entry.1 = key := by simpa using List.find?_some hfind
    have heq : entry = (key, value) := List.inj_on_of_nodup_map dict.distinct
      (List.mem_of_find?_eq_some hfind) hentry hkey
    rw [hfind, heq]
    rfl

theorem get_eq_none {dict : Dict Key Value} {key : Key} :
    dict.get key = none ↔ key ∉ dict.keys := by
  constructor
  · intro hget hkey
    obtain ⟨entry, hentry, rfl⟩ := List.mem_map.mp hkey
    rw [get_eq_some.mpr hentry] at hget
    cases hget
  · intro hkey
    rw [Option.eq_none_iff_forall_not_mem]
    exact fun value hget => hkey (List.mem_map.mpr ⟨_, get_eq_some.mp hget, rfl⟩)

theorem mem_keys {dict : Dict Key Value} {key : Key} :
    key ∈ dict.keys ↔ ∃ value, dict.get key = some value := by
  rw [← not_iff_not, ← get_eq_none, Option.eq_none_iff_forall_ne_some, not_exists]

theorem mem_values {dict : Dict Key Value} {value : Value} :
    value ∈ dict.values ↔ ∃ key, dict.get key = some value := by
  simp [values, get_eq_some]

omit [DecidableEq Key] in
@[simp] theorem keys_empty : (empty : Dict Key Value).keys = [] := rfl

@[simp] theorem get_empty (key : Key) : (empty : Dict Key Value).get key = none := rfl

theorem keys_set (dict : Dict Key Value) (key : Key) (value : Value) :
    (dict.set key value).keys = if key ∈ dict.keys then dict.keys else dict.keys ++ [key] := by
  unfold set
  split_ifs with hkey
  · exact keys_replace key value dict.entries
  · simp [keys]

theorem mem_keys_set {dict : Dict Key Value} {key other : Key} {value : Value} :
    other ∈ (dict.set key value).keys ↔ other = key ∨ other ∈ dict.keys := by
  rw [keys_set]
  split_ifs with hkey
  · exact ⟨Or.inr, fun h => h.elim (fun heq => heq ▸ hkey) id⟩
  · rw [List.mem_append, List.mem_singleton, or_comm]

/-- Only the value of the key changes. -/
theorem get_set (dict : Dict Key Value) (key : Key) (value : Value) (other : Key) :
    (dict.set key value).get other = if other = key then some value else dict.get other := by
  ext found
  unfold set
  by_cases hkey : key ∈ dict.keys
  · rw [dif_pos hkey, get_eq_some, List.mem_map]
    split_ifs with hother
    · obtain ⟨old, hold⟩ := mem_keys.mp hkey
      constructor
      · rintro ⟨entry, hentry, heq⟩
        cases heq
        simp [hother]
      · intro hvalue
        cases hvalue
        exact ⟨(key, old), get_eq_some.mp hold, by simp [replace, hother]⟩
    · rw [get_eq_some]
      constructor
      · rintro ⟨entry, hentry, heq⟩
        cases heq
        rw [if_neg hother]
        exact hentry
      · intro hentry
        exact ⟨_, hentry, by rw [replace, if_neg hother]⟩
  · rw [dif_neg hkey, get_eq_some, List.mem_append, List.mem_singleton]
    split_ifs with hother
    · subst hother
      constructor
      · rintro (hentry | heq)
        · exact absurd (List.mem_map.mpr ⟨_, hentry, rfl⟩) hkey
        · cases heq
          rfl
      · intro hvalue
        cases hvalue
        exact Or.inr rfl
    · rw [get_eq_some]
      constructor
      · rintro (hentry | heq)
        · exact hentry
        · cases heq
          exact absurd rfl hother
      · exact Or.inl

/-! ## Values of all keys at once -/

/-- Change every value under its key. -/
def mapValues {Other : Type*} (dict : Dict Key Value) (change : Key → Value → Other) :
    Dict Key Other :=
  ⟨dict.entries.map fun entry => (entry.1, change entry.1 entry.2), by
    rw [List.map_map]
    exact dict.distinct⟩

theorem get_mapValues {Other : Type*} (dict : Dict Key Value) (change : Key → Value → Other)
    (key : Key) : (dict.mapValues change).get key = (dict.get key).map (change key) := by
  ext found
  rw [get_eq_some, Option.map_eq_some_iff]
  simp only [mapValues, List.mem_map]
  constructor
  · rintro ⟨entry, hentry, heq⟩
    cases heq
    exact ⟨entry.2, get_eq_some.mpr hentry, rfl⟩
  · rintro ⟨value, hvalue, rfl⟩
    exact ⟨(key, value), get_eq_some.mp hvalue, rfl⟩

/-! ## Dictionaries filled from a list -/

section Filled

variable (keyOf : Item → Key) (valueOf : Item → Value)

/-- Assign the value of every item under its key. -/
def assign (items : List Item) (dict : Dict Key Value) : Dict Key Value :=
  items.foldl (fun held item => held.set (keyOf item) (valueOf item)) dict

theorem mem_keys_assign (items : List Item) (dict : Dict Key Value) {key : Key} :
    key ∈ (assign keyOf valueOf items dict).keys ↔
      key ∈ dict.keys ∨ ∃ item ∈ items, keyOf item = key := by
  unfold assign
  induction items generalizing dict with
  | nil => simp
  | cons item rest ih =>
      rw [List.foldl_cons, ih, mem_keys_set, List.exists_mem_cons_iff, eq_comm]
      tauto

/-- Items with distinct keys all keep their values. -/
theorem get_assign {items : List Item} (hitems : (items.map keyOf).Nodup)
    (dict : Dict Key Value) {item : Item} (hitem : item ∈ items) :
    (assign keyOf valueOf items dict).get (keyOf item) = some (valueOf item) := by
  unfold assign
  induction items using List.reverseRecOn with
  | nil => cases hitem
  | append_singleton items last ih =>
      rw [List.map_append, List.nodup_append] at hitems
      rw [List.foldl_concat, get_set]
      rcases List.mem_append.mp hitem with hfront | hlast
      · have hne : keyOf item ≠ keyOf last :=
          hitems.2.2 _ (List.mem_map_of_mem hfront) _ (by simp)
        rw [if_neg hne]
        exact ih hitems.1 hfront
      · cases List.mem_singleton.mp hlast
        rw [if_pos rfl]

/-- What is held under a key is the value of one of its items. -/
theorem exists_of_get_assign {items : List Item} {key : Key} {value : Value}
    (hget : (assign keyOf valueOf items empty).get key = some value) :
    ∃ item ∈ items, keyOf item = key ∧ valueOf item = value := by
  unfold assign at hget
  induction items using List.reverseRecOn with
  | nil => cases hget
  | append_singleton items last ih =>
      rw [List.foldl_concat, get_set] at hget
      split_ifs at hget with hlast
      · cases hget
        exact ⟨last, by simp, hlast.symm, rfl⟩
      · obtain ⟨item, hitem, hvalue⟩ := ih hget
        exact ⟨item, List.mem_append_left _ hitem, hvalue⟩

/-- Assign the values of the items whose keys are not there yet. -/
def assignMissing (items : List Item) (dict : Dict Key Value) : Dict Key Value :=
  items.foldl
    (fun held item =>
      if keyOf item ∈ held.keys then held else held.set (keyOf item) (valueOf item))
    dict

theorem exists_of_get_assignMissing {items : List Item} {key : Key} {value : Value}
    (hget : (assignMissing keyOf valueOf items empty).get key = some value) :
    ∃ item ∈ items, keyOf item = key ∧ valueOf item = value := by
  unfold assignMissing at hget
  induction items using List.reverseRecOn with
  | nil => cases hget
  | append_singleton items last ih =>
      have hfront : _ → ∃ item ∈ items ++ [last], keyOf item = key ∧ valueOf item = value :=
        fun hold => by
          obtain ⟨item, hitem, hvalue⟩ := ih hold
          exact ⟨item, List.mem_append_left _ hitem, hvalue⟩
      rw [List.foldl_concat] at hget
      split_ifs at hget with hseen
      · exact hfront hget
      · rw [get_set] at hget
        split_ifs at hget with hlast
        · cases hget
          exact ⟨last, by simp, hlast.symm, rfl⟩
        · exact hfront hget

theorem mem_keys_assignMissing (items : List Item) (dict : Dict Key Value) {key : Key} :
    key ∈ (assignMissing keyOf valueOf items dict).keys ↔
      key ∈ dict.keys ∨ ∃ item ∈ items, keyOf item = key := by
  unfold assignMissing
  induction items generalizing dict with
  | nil => simp
  | cons item rest ih =>
      rw [List.foldl_cons, ih, List.exists_mem_cons_iff, ← or_assoc]
      have hkeys : key ∈ (if keyOf item ∈ dict.keys then dict
          else dict.set (keyOf item) (valueOf item)).keys ↔
          key ∈ dict.keys ∨ keyOf item = key := by
        split_ifs with hseen
        · exact ⟨Or.inl, fun h => h.elim id fun heq => heq ▸ hseen⟩
        · rw [mem_keys_set, or_comm, eq_comm]
      rw [hkeys]

/-- Collect an item behind the others of its key (`setdefault(key, []).append(item)`). -/
def collect (dict : Dict Key (List Value)) (key : Key) (value : Value) :
    Dict Key (List Value) :=
  dict.set key ((dict.get key).getD [] ++ [value])

/-- What is collected under a key are the values of its items, in order. -/
theorem get_collected (items : List Item) (key : Key) :
    ((items.foldl (fun held item => held.collect (keyOf item) (valueOf item)) empty).get key).getD
        [] = (items.filter fun item => keyOf item = key).map valueOf := by
  induction items using List.reverseRecOn with
  | nil => rfl
  | append_singleton items last ih =>
      rw [List.foldl_concat, collect, get_set, List.filter_append, List.map_append, ← ih]
      by_cases hlast : keyOf last = key
      · subst hlast
        simp
      · simp [hlast, Ne.symm hlast]

theorem mem_keys_collected (items : List Item) {key : Key} :
    key ∈ (items.foldl (fun held item => held.collect (keyOf item) (valueOf item)) empty).keys ↔
      ∃ item ∈ items, keyOf item = key := by
  induction items using List.reverseRecOn with
  | nil => simp
  | append_singleton items last ih =>
      rw [List.foldl_concat, collect, mem_keys_set, ih]
      simp only [List.mem_append, List.mem_singleton, or_and_right, exists_or, exists_eq_left]
      rw [or_comm, eq_comm]

end Filled

end Dict
end Library
end CoreCycler
