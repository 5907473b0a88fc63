import Mathlib.Data.List.Pairwise
import Mathlib.Data.List.Nodup
import Mathlib.Tactic.Common

/-!
# Tables that hand out their row IDs

A table numbers its rows itself: a new row gets the number behind every number it ever handed
out.  Rows that are copied from another table get fresh IDs, and the map from their old IDs to
the new ones is kept for the rows that refer to them.
-/

namespace CoreCycler
namespace Library
namespace Tables

/-- Rows with ascending IDs, none above the last one handed out. -/
structure Table (Row : Type*) where
  rows : List (Int × Row)
  /-- The last ID handed out. -/
  seq : Int
  ascending : rows.Pairwise fun before behind => before.1 < behind.1
  bounded : ∀ entry ∈ rows, entry.1 ≤ seq

variable {Row : Type*}

namespace Table

/-- Add a row under the next ID. -/
def append (table : Table Row) (row : Row) : Table Row where
  rows := table.rows ++ [(table.seq + 1, row)]
  seq := table.seq + 1
  ascending := by
    refine List.pairwise_append.mpr
      ⟨table.ascending, List.pairwise_singleton _ _, fun entry hentry new hnew => ?_⟩
    cases List.mem_singleton.mp hnew
    exact Int.lt_add_one_of_le (table.bounded entry hentry)
  bounded := by
    intro entry hentry
    rcases List.mem_append.mp hentry with hold | hnew
    · exact Int.le_trans (table.bounded entry hold) (Int.le_add_one (Int.le_refl _))
    · cases List.mem_singleton.mp hnew
      exact Int.le_refl _

@[simp] theorem rows_append (table : Table Row) (row : Row) :
    (table.append row).rows = table.rows ++ [(table.seq + 1, row)] := rfl

@[simp] theorem seq_append (table : Table Row) (row : Row) :
    (table.append row).seq = table.seq + 1 := rfl

theorem ext_rows {table other : Table Row} (hrows : table.rows = other.rows)
    (hseq : table.seq = other.seq) : table = other := by
  cases table
  cases other
  cases hrows
  cases hseq
  rfl

/-- IDs are not repeated. -/
theorem ids_nodup (table : Table Row) : (table.rows.map Prod.fst).Nodup :=
  List.pairwise_map.mpr (table.ascending.imp fun hlt => Int.ne_of_lt hlt)

theorem id_unique (table : Table Row) {id : Int} {row other : Row}
    (hrow : (id, row) ∈ table.rows) (hother : (id, other) ∈ table.rows) : row = other :=
  (Prod.ext_iff.mp (List.inj_on_of_nodup_map table.ids_nodup hrow hother rfl)).2

/-- Take rows out; their IDs are not handed out again. -/
def filter (table : Table Row) (keep : Int × Row → Bool) : Table Row where
  rows := table.rows.filter keep
  seq := table.seq
  ascending := table.ascending.filter _
  bounded := fun entry hentry => table.bounded entry (List.mem_of_mem_filter hentry)

@[simp] theorem rows_filter (table : Table Row) (keep : Int × Row → Bool) :
    (table.filter keep).rows = table.rows.filter keep := rfl

@[simp] theorem seq_filter (table : Table Row) (keep : Int × Row → Bool) :
    (table.filter keep).seq = table.seq := rfl

/-- Change rows under their IDs. -/
def update (table : Table Row) (change : Int × Row → Row) : Table Row where
  rows := table.rows.map fun entry => (entry.1, change entry)
  seq := table.seq
  ascending := List.pairwise_map.mpr table.ascending
  bounded := fun entry hentry => by
    obtain ⟨before, hbefore, rfl⟩ := List.mem_map.mp hentry
    exact table.bounded before hbefore

@[simp] theorem rows_update (table : Table Row) (change : Int × Row → Row) :
    (table.update change).rows = table.rows.map fun entry => (entry.1, change entry) := rfl

@[simp] theorem seq_update (table : Table Row) (change : Int × Row → Row) :
    (table.update change).seq = table.seq := rfl

end Table

/-- A dictionary from old IDs to new ones. -/
abbrev IdMap := Int → Option Int

def IdMap.empty : IdMap := fun _ => none

def IdMap.set (map : IdMap) (id new : Int) : IdMap :=
  fun key => if key = id then some new else map key

@[simp] theorem IdMap.set_self (map : IdMap) (id new : Int) : map.set id new id = some new :=
  if_pos rfl

theorem IdMap.set_of_ne (map : IdMap) {id new key : Int} (hne : key ≠ id) :
    map.set id new key = map key :=
  if_neg hne

end Tables
end Library
end CoreCycler
