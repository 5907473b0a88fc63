import CoreCycler.History.Schema
import Mathlib.Data.List.Sort
import Mathlib.Logic.Function.Basic

/-!
# Merging another history database

`merge_from` copies every row of a source database into the destination within one
transaction.  Parents are copied first and get fresh IDs; the rows that refer to them are
copied with their references mapped.  A tuning context the destination has already is not
copied but found again, and a bank of a shared key is added to the one that is there.
-/

namespace CoreCycler
namespace History

open Library.Tables

/-- Why a statement raises. -/
inductive SqlError where
  | notNull
  | unique
  | foreignKey
  /-- The context that kept another one out is not found. -/
  | missing
  /-- Anything outside the schema: a locked file, a full disk. -/
  | fault
deriving DecidableEq, Repr

/-- The statements of a merge. -/
inductive Statement where
  | begin
  | selectRows (table : TableName)
  | insertRow (table : TableName) (id : Int)
  | selectContext (id : Int)
  | selectJournal
  | insertJournal (key : Int × Int)
  | selectBanks
  | upsertBank (key : Int × Int × String × Int)
  | commit

/-- The statements that raise for a reason outside the schema. -/
abbrev Faults := Statement → Bool

/-! ## Insertions -/

namespace Database

/-- Add a row to a table under the next ID. -/
def append (db : Database) (table : TableName) (row : Row) : Database :=
  { db with tables := Function.update db.tables table ((db.tables table).append row) }

@[simp] theorem tables_append (db : Database) (table : TableName) (row : Row) :
    (db.append table row).tables table = (db.tables table).append row :=
  Function.update_self _ _ _

theorem tables_append_of_ne (db : Database) {table other : TableName} (row : Row)
    (hne : other ≠ table) : (db.append table row).tables other = db.tables other :=
  Function.update_of_ne hne _ _

@[simp] theorem journal_append (db : Database) (table : TableName) (row : Row) :
    (db.append table row).journal = db.journal := rfl

@[simp] theorem banks_append (db : Database) (table : TableName) (row : Row) :
    (db.append table row).banks = db.banks := rfl

/-- `INSERT INTO`: the constraints of the table are checked. -/
def insert (db : Database) (table : TableName) (row : Row) : Except SqlError Database :=
  if ∃ column ∈ (ddl table).columns, column ∉ (ddl table).nullable ∧ row column = .null then
    .error .notNull
  else if ∃ key ∈ (ddl table).unique, ∃ entry ∈ (db.tables table).rows,
      SameKey key entry.2 row then
    .error .unique
  else if ∃ reference ∈ (ddl table).references,
      ¬ db.Resolves reference.2 (row reference.1) then
    .error .foreignKey
  else
    .ok (db.append table row)

/-- `INSERT OR IGNORE INTO`: the new ID, or none where a constraint kept the row out. -/
def insertOrIgnore (db : Database) (table : TableName) (row : Row) :
    Except SqlError (Option Int × Database) :=
  match db.insert table row with
  | .ok inserted => .ok (some (inserted.tables table).seq, inserted)
  | .error .notNull | .error .unique => .ok (none, db)
  | .error error => .error error

/-- `INSERT INTO tuner_co_journal`. -/
def insertJournal (db : Database) (row : JournalRow) : Except SqlError Database :=
  if row.key ∈ db.journal.map JournalRow.key then .error .unique
  else if ¬ db.HasId .tunerSessions row.sessionId then .error .foreignKey
  else .ok { db with journal := db.journal ++ [row] }

end Database

/-- `ON CONFLICT DO UPDATE SET`: the clean time is added, the later stamp kept. -/
def BankRow.grow (bank excluded : BankRow) : BankRow :=
  { bank with
    cleanSeconds := bank.cleanSeconds + excluded.cleanSeconds
    updatedAt := if bank.updatedAt < excluded.updatedAt then excluded.updatedAt
      else bank.updatedAt }

/-- `INSERT INTO tuner_regime_banks ... ON CONFLICT DO UPDATE`. -/
def Database.upsertBank (db : Database) (bank : BankRow) : Except SqlError Database :=
  if ¬ db.HasId .tuningContexts bank.contextId then .error .foreignKey
  else if bank.key ∈ db.banks.map BankRow.key then
    .ok { db with
      banks := db.banks.map fun held => if held.key = bank.key then held.grow bank else held }
  else
    .ok { db with banks := db.banks ++ [bank] }

/-! ## Copying -/

/-- The row an insertion stores: a value for each column it names. -/
def project (table : TableName) (values : String → Value) : Row :=
  fun column => if column ∈ insertColumns table then values column else .null

/-- A reference in terms of the copied parents; without a copy it is dropped. -/
def mapReference (map : IdMap) : Value → Value
  | .integer id =>
      match map id with
      | some new => .integer new
      | none => .null
  | _ => .null

/-- The key that contexts are recognised by. -/
def contextKey : List String := ["context_hash", "bios_version"]

/-- Copy a context, or find the one that is there already: its ID in the destination, and
whether it was copied. -/
def mergeContext (faults : Faults) (db : Database) (id : Int) (row : Row) :
    Except SqlError (Database × Int × Bool) :=
  if faults (.insertRow .tuningContexts id) then
    .error .fault
  else
    match db.insertOrIgnore .tuningContexts (project .tuningContexts row) with
    | .error error => .error error
    | .ok (some new, inserted) => .ok (inserted, new, true)
    | .ok (none, kept) =>
        if faults (.selectContext id) then
          .error .fault
        else
          match (kept.tables .tuningContexts).rows.find?
              fun entry => decide (SameKey contextKey entry.2 row) with
          | none => .error .missing
          | some existing => .ok (kept, existing.1, false)

/-- Copy the contexts; the count is of the copied ones. -/
def mergeContexts (faults : Faults) :
    List (Int × Row) → Database → IdMap → Nat → Except SqlError (Database × IdMap × Nat)
  | [], db, map, count => .ok (db, map, count)
  | (id, row) :: rest, db, map, count =>
      match mergeContext faults db id row with
      | .error error => .error error
      | .ok (stored, new, copied) =>
          mergeContexts faults rest stored (map.set id new)
            (if copied then count + 1 else count)

/-- Copy the rows of a table, in the order of their IDs; a row that is mapped to none is
skipped. -/
def copyRows (faults : Faults) (table : TableName) (remap : Row → Option Row) :
    List (Int × Row) → Database → IdMap → Except SqlError (Database × IdMap)
  | [], db, map => .ok (db, map)
  | (id, row) :: rest, db, map =>
      match remap row with
      | none => copyRows faults table remap rest db map
      | some new =>
          if faults (.insertRow table id) then
            .error .fault
          else
            match db.insert table new with
            | .error error => .error error
            | .ok inserted =>
                copyRows faults table remap rest inserted
                  (map.set id (inserted.tables table).seq)

/-- The copy of a run or session: an orphaned context leaves it ungrouped. -/
def parentRow (contexts : IdMap) (table : TableName) (row : Row) : Row :=
  project table fun column =>
    if column = "context_id" then mapReference contexts (row column) else row column

/-- Copy the runs or sessions. -/
def copyParent (faults : Faults) (contexts : IdMap) (table : TableName) (src db : Database) :
    Except SqlError (Database × IdMap) :=
  if faults (.selectRows table) then .error .fault
  else
    copyRows faults table (fun row => some (parentRow contexts table row))
      (src.tables table).rows db IdMap.empty

/-- The tables of the children with the parents they refer to. -/
def mergeTables : List (TableName × List (String × TableName)) :=
  [(.coreResults, [("run_id", .runs)]),
    (.events, [("run_id", .runs)]),
    (.telemetrySamples, [("run_id", .runs)]),
    (.tunerCoreStates, [("session_id", .tunerSessions)]),
    (.tunerEvents, [("session_id", .tunerSessions)]),
    (.tunerTestLog, [("session_id", .tunerSessions), ("run_id", .runs)])]

/-- A reference to a parent that has no copy. -/
def orphaned (maps : TableName → IdMap) (remaps : List (String × TableName)) (row : Row)
    (column : String) : Bool :=
  match remaps.lookup column with
  | none => false
  | some parent => decide (row column ≠ .null ∧ mapReference (maps parent) (row column) = .null)

/-- The copy of a child, or none where its parent is missing; a missing run only leaves it
without one. -/
def childRow (maps : TableName → IdMap) (table : TableName)
    (remaps : List (String × TableName)) (row : Row) : Option Row :=
  if ∃ column ∈ insertColumns table,
      orphaned maps remaps row column = true ∧ column ≠ "run_id" then
    none
  else
    some (project table fun column =>
      match remaps.lookup column with
      | none => row column
      | some parent => mapReference (maps parent) (row column))

/-- Copy the children, table by table. -/
def mergeChildren (faults : Faults) (maps : TableName → IdMap) (src : Database) :
    List (TableName × List (String × TableName)) → Database → Except SqlError Database
  | [], db => .ok db
  | (table, remaps) :: rest, db =>
      if faults (.selectRows table) then
        .error .fault
      else
        match copyRows faults table (childRow maps table remaps) (src.tables table).rows db
            IdMap.empty with
        | .error error => .error error
        | .ok (copied, _) => mergeChildren faults maps src rest copied

/-- Copy journal rows under their session's new ID. -/
def mergeJournal (faults : Faults) (sessions : IdMap) :
    List JournalRow → Database → Except SqlError Database
  | [], db => .ok db
  | row :: rest, db =>
      match sessions row.sessionId with
      | none => mergeJournal faults sessions rest db
      | some new =>
          if faults (.insertJournal row.key) then
            .error .fault
          else
            match db.insertJournal { row with sessionId := new } with
            | .error error => .error error
            | .ok inserted => mergeJournal faults sessions rest inserted

/-- Add banks under their context's ID in the destination. -/
def mergeBanks (faults : Faults) (contexts : IdMap) :
    List BankRow → Database → Except SqlError Database
  | [], db => .ok db
  | bank :: rest, db =>
      match contexts bank.contextId with
      | none => mergeBanks faults contexts rest db
      | some new =>
          if faults (.upsertBank bank.key) then
            .error .fault
          else
            match db.upsertBank { bank with contextId := new } with
            | .error error => .error error
            | .ok stored => mergeBanks faults contexts rest stored

/-- `ORDER BY session_id, core_id`. -/
def journalOrder (row other : JournalRow) : Prop :=
  row.sessionId < other.sessionId ∨
    row.sessionId = other.sessionId ∧ row.coreId ≤ other.coreId

instance : DecidableRel journalOrder := fun row other =>
  inferInstanceAs (Decidable (row.sessionId < other.sessionId ∨
    row.sessionId = other.sessionId ∧ row.coreId ≤ other.coreId))

/-- `ORDER BY context_id, core_id, regime, offset_value`. -/
def bankOrder (bank other : BankRow) : Prop :=
  bank.contextId < other.contextId ∨ bank.contextId = other.contextId ∧
    (bank.coreId < other.coreId ∨ bank.coreId = other.coreId ∧
      (bank.regime < other.regime ∨ bank.regime = other.regime ∧
        bank.offsetValue ≤ other.offsetValue))

instance : DecidableRel bankOrder := fun bank other =>
  inferInstanceAs (Decidable (bank.contextId < other.contextId ∨
    bank.contextId = other.contextId ∧
      (bank.coreId < other.coreId ∨ bank.coreId = other.coreId ∧
        (bank.regime < other.regime ∨ bank.regime = other.regime ∧
          bank.offsetValue ≤ other.offsetValue))))

/-- What a merge reports. -/
structure MergeCounts where
  contexts : Nat
  runs : Nat
  tunerSessions : Nat
deriving DecidableEq

/-- The maps of the copied parents. -/
def parentMaps (contexts runs sessions : IdMap) : TableName → IdMap
  | .tuningContexts => contexts
  | .runs => runs
  | .tunerSessions => sessions
  | _ => IdMap.empty

/-- The statements between `BEGIN` and `COMMIT`. -/
def mergeStatements (faults : Faults) (dest src : Database) :
    Except SqlError (Database × MergeCounts) := do
  if faults .begin || faults (.selectRows .tuningContexts) then throw .fault
  let (withContexts, contexts, count) ←
    mergeContexts faults (src.tables .tuningContexts).rows dest IdMap.empty 0
  let (withRuns, runs) ← copyParent faults contexts .runs src withContexts
  let (withSessions, sessions) ← copyParent faults contexts .tunerSessions src withRuns
  let withChildren ←
    mergeChildren faults (parentMaps contexts runs sessions) src mergeTables withSessions
  if faults .selectJournal then throw .fault
  let withJournal ←
    mergeJournal faults sessions (src.journal.insertionSort journalOrder) withChildren
  if faults .selectBanks then throw .fault
  let withBanks ← mergeBanks faults contexts (src.banks.insertionSort bankOrder) withJournal
  if faults .commit then throw .fault
  return (withBanks, { contexts := count, runs := (src.tables .runs).rows.length,
                       tunerSessions := (src.tables .tunerSessions).rows.length })

/-- Adopt every record of another database; an error rolls the transaction back. -/
def mergeFrom (faults : Faults) (dest src : Database) :
    Except SqlError MergeCounts × Database :=
  match mergeStatements faults dest src with
  | .ok (merged, counts) => (.ok counts, merged)
  | .error error => (.error error, dest)

end History
end CoreCycler
