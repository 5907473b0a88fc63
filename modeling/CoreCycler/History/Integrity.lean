import CoreCycler.History.Maintenance
import CoreCycler.History.MergeLossless

/-!
# Every call keeps the database intact

The schema's constraints and references hold after every sequence of calls, whichever of them
raise.  Three kinds of statement are behind all calls: one row more, rows changed in place under
their keys and references, and a deletion that takes the children along and refuses to leave a
reference behind.
-/

namespace CoreCycler
namespace History

open Library Library.Tables

variable {db : Database} {table : TableName}

namespace Database

/-! ## Insertions -/

/-- A row that meets the constraints can be appended. -/
theorem Valid.append (hvalid : db.Valid) {row : Row} (hfits : db.Fits table row)
    (hcolumns : ∀ column ∉ (ddl table).columns, row column = .null)
    (hfree : ∀ key ∈ (ddl table).unique, ∀ entry ∈ (db.tables table).rows,
      ¬ SameKey key entry.2 row) : (db.append table row).Valid := by
  -- Every row is an old one, or the new one.
  have hmem : ∀ other, ∀ entry ∈ ((db.append table row).tables other).rows,
      entry ∈ (db.tables other).rows ∨ other = table ∧ entry.2 = row := fun other entry hentry => by
    by_cases hother : other = table
    · subst hother
      rw [tables_append, Table.rows_append, List.mem_append, List.mem_singleton] at hentry
      rcases hentry with hold | rfl
      · exact .inl hold
      · exact .inr ⟨rfl, rfl⟩
    · rw [tables_append_of_ne db row hother] at hentry
      exact .inl hentry
  have hids : ∀ parent id, db.HasId parent id → (db.append table row).HasId parent id :=
    fun parent id hid => hid.append row
  constructor
  case fits =>
    intro other entry hentry
    rcases hmem other entry hentry with hold | ⟨rfl, hnew⟩
    · exact (hvalid.fits other entry hold).mono hids
    · rw [hnew]
      exact hfits.mono hids
  case columns =>
    intro other entry hentry
    rcases hmem other entry hentry with hold | ⟨rfl, hnew⟩
    · exact hvalid.columns other entry hold
    · rw [hnew]
      exact hcolumns
  case distinct =>
    intro other
    by_cases hother : other = table
    · subst hother
      rw [tables_append, Table.rows_append, List.map_append]
      refine distinct_concat.mpr ⟨hvalid.distinct other, fun key hkey held hheld => ?_⟩
      obtain ⟨entry, hentry, rfl⟩ := List.mem_map.mp hheld
      exact hfree key hkey entry hentry
    · rw [tables_append_of_ne db row hother]
      exact hvalid.distinct other
  case journalResolves => exact fun row hrow => hids _ _ (hvalid.journalResolves row hrow)
  case journalDistinct => exact hvalid.journalDistinct
  case banksResolve => exact fun bank hbank => hids _ _ (hvalid.banksResolve bank hbank)
  case banksDistinct => exact hvalid.banksDistinct

theorem project_eq_null {values : Row} {column : String} (hcolumn : column ∉ (ddl table).columns) :
    project table values column = .null := by
  unfold project
  rw [if_neg fun hmem => hcolumn ((insertColumns_perm table).mem_iff.mp hmem)]

theorem Valid.insert (hvalid : db.Valid) {values : Row} {inserted : Database}
    (hinserted : db.insert table (project table values) = .ok inserted) : inserted.Valid := by
  obtain ⟨hfits, hfree, rfl⟩ := insert_eq_ok.mp hinserted
  exact hvalid.append hfits (fun column hcolumn => project_eq_null hcolumn) hfree

/-! ## Updates -/

@[simp] theorem tables_modify (db : Database) (table : TableName) (change : Int × Row → Row) :
    (db.modify table change).tables table = (db.tables table).update change :=
  Function.update_self _ _ _

theorem tables_modify_of_ne (db : Database) {table other : TableName}
    (change : Int × Row → Row) (hne : other ≠ table) :
    (db.modify table change).tables other = db.tables other :=
  Function.update_of_ne hne _ _

theorem hasId_modify {change : Int × Row → Row} {other : TableName} {id : Int} :
    (db.modify table change).HasId other id ↔ db.HasId other id := by
  unfold HasId
  by_cases hother : other = table
  · subst hother
    simp
  · rw [tables_modify_of_ne db change hother]

/-- Rows may change where they keep their references and their keys. -/
theorem Valid.modify (hvalid : db.Valid) {change : Int × Row → Row}
    (hnotNull : ∀ entry ∈ (db.tables table).rows, ∀ column ∈ (ddl table).columns,
      column ∉ (ddl table).nullable → change entry column ≠ .null)
    (hcolumns : ∀ entry ∈ (db.tables table).rows, ∀ column ∉ (ddl table).columns,
      change entry column = .null)
    (hreferences : ∀ entry ∈ (db.tables table).rows, ∀ reference ∈ (ddl table).references,
      change entry reference.1 = entry.2 reference.1)
    (hkeys : ∀ entry ∈ (db.tables table).rows, ∀ key ∈ (ddl table).unique, ∀ column ∈ key,
      change entry column = entry.2 column) : (db.modify table change).Valid := by
  have hids : ∀ parent id, db.HasId parent id → (db.modify table change).HasId parent id :=
    fun parent id => hasId_modify.mpr
  -- Every row is an old one of another table, or a changed one of this.
  have hmem : ∀ other, ∀ entry ∈ ((db.modify table change).tables other).rows,
      other ≠ table ∧ entry ∈ (db.tables other).rows ∨
        other = table ∧ ∃ before ∈ (db.tables table).rows, entry.2 = change before :=
    fun other entry hentry => by
      by_cases hother : other = table
      · subst hother
        rw [tables_modify, Table.rows_update, List.mem_map] at hentry
        obtain ⟨before, hbefore, rfl⟩ := hentry
        exact .inr ⟨rfl, before, hbefore, rfl⟩
      · rw [tables_modify_of_ne db change hother] at hentry
        exact .inl ⟨hother, hentry⟩
  constructor
  case fits =>
    intro other entry hentry
    rcases hmem other entry hentry with ⟨-, hold⟩ | ⟨rfl, before, hbefore, hchanged⟩
    · exact (hvalid.fits other entry hold).mono hids
    · rw [hchanged]
      refine ⟨hnotNull before hbefore, fun reference hreference => ?_⟩
      rw [hreferences before hbefore reference hreference]
      exact ((hvalid.fits _ before hbefore).resolves reference hreference).mono (hids _)
  case columns =>
    intro other entry hentry
    rcases hmem other entry hentry with ⟨-, hold⟩ | ⟨rfl, before, hbefore, hchanged⟩
    · exact hvalid.columns other entry hold
    · rw [hchanged]
      exact hcolumns before hbefore
  case distinct =>
    intro other
    by_cases hother : other = table
    · subst hother
      rw [tables_modify, Table.rows_update, List.map_map]
      intro key hkey
      -- A change of other columns makes no two keys equal.
      have hbefore := List.pairwise_map.mp (hvalid.distinct other key hkey)
      refine List.pairwise_map.mpr (hbefore.imp_of_mem fun {entry} {held} hentry hheld hapart => ?_)
      refine fun hsame => hapart fun column hcolumn => ?_
      have hagree := hsame column hcolumn
      simp only [Function.comp_apply] at hagree
      rwa [hkeys entry hentry key hkey column hcolumn,
        hkeys held hheld key hkey column hcolumn] at hagree
    · rw [tables_modify_of_ne db change hother]
      exact hvalid.distinct other
  case journalResolves => exact fun row hrow => hids _ _ (hvalid.journalResolves row hrow)
  case journalDistinct => exact hvalid.journalDistinct
  case banksResolve => exact fun bank hbank => hids _ _ (hvalid.banksResolve bank hbank)
  case banksDistinct => exact hvalid.banksDistinct

end Database

/-- Columns that an update may set to their values: no reference, no part of a key, no null. -/
def Settable (table : TableName) (sets : List (String × Value)) : Prop :=
  ∀ set ∈ sets, set.1 ∈ (ddl table).columns ∧ set.2 ≠ .null ∧
    set.1 ∉ (ddl table).references.map Prod.fst ∧ ∀ key ∈ (ddl table).unique, set.1 ∉ key

/-- The columns are told by their names, whatever the values of a call are. -/
instance (table : TableName) (sets : List (String × Value)) : Decidable (Settable table sets) :=
  inferInstanceAs (Decidable (∀ set ∈ sets, _ ∧ _ ∧ _ ∧ ∀ key ∈ (ddl table).unique, set.1 ∉ key))

theorem setColumns_of_not_mem {row : Row} {sets : List (String × Value)} {column : String}
    (hcolumn : column ∉ sets.map Prod.fst) : setColumns row sets column = row column := by
  unfold setColumns
  rw [List.find?_eq_none.mpr fun set hset => by
    simpa using fun heq => hcolumn (List.mem_map.mpr ⟨set, hset, heq⟩)]

/-- A column has the value of a set, or the one it had. -/
theorem setColumns_cases (row : Row) (sets : List (String × Value)) (column : String) :
    (∃ set ∈ sets, set.1 = column ∧ setColumns row sets column = set.2) ∨
      column ∉ sets.map Prod.fst ∧ setColumns row sets column = row column := by
  by_cases hcolumn : column ∈ sets.map Prod.fst
  · obtain ⟨set, hset, hname⟩ := List.mem_map.mp hcolumn
    cases hfound : sets.find? fun set => decide (set.1 = column) with
    | none => exact absurd hname (by simpa using List.find?_eq_none.mp hfound set hset)
    | some found =>
        refine .inl ⟨found, List.mem_of_find?_eq_some hfound, ?_, ?_⟩
        · simpa using List.find?_some hfound
        · unfold setColumns
          rw [hfound]
  · exact .inr ⟨hcolumn, setColumns_of_not_mem hcolumn⟩

theorem Database.Valid.updateWhere (hvalid : db.Valid) {sets : List (String × Value)}
    (hsets : Settable table sets) (which : Int × Row → Bool) :
    (db.updateWhere table which sets).Valid := by
  refine hvalid.modify (fun entry hentry column hcolumn hnot => ?_)
    (fun entry hentry column hcolumn => ?_) (fun entry hentry reference hreference => ?_)
    fun entry hentry key hkey column hcolumn => ?_
  · split
    · rcases setColumns_cases entry.2 sets column with ⟨set, hset, -, hvalue⟩ | ⟨-, hvalue⟩
      · rw [hvalue]
        exact (hsets set hset).2.1
      · rw [hvalue]
        exact (hvalid.fits table entry hentry).notNull column hcolumn hnot
    · exact (hvalid.fits table entry hentry).notNull column hcolumn hnot
  · split
    · rcases setColumns_cases entry.2 sets column with ⟨set, hset, rfl, -⟩ | ⟨-, hvalue⟩
      · exact absurd (hsets set hset).1 hcolumn
      · rw [hvalue]
        exact hvalid.columns table entry hentry column hcolumn
    · exact hvalid.columns table entry hentry column hcolumn
  · split
    · rcases setColumns_cases entry.2 sets reference.1 with ⟨set, hset, hname, -⟩ | ⟨-, hvalue⟩
      · exact absurd (List.mem_map.mpr ⟨reference, hreference, hname.symm⟩) (hsets set hset).2.2.1
      · exact hvalue
    · rfl
  · split
    · rcases setColumns_cases entry.2 sets column with ⟨set, hset, rfl, -⟩ | ⟨-, hvalue⟩
      · exact absurd hcolumn ((hsets set hset).2.2.2 key hkey)
      · exact hvalue
    · rfl

/-! ## Deletions -/

namespace Database

/-- What a deletion leaves of a table. -/
theorem mem_without {gone : List Int} {child : TableName} {entry : Int × Row} :
    entry ∈ ((db.without table gone).tables child).rows ↔
      entry ∈ (db.tables child).rows ∧ ¬ (child = table ∧ entry.1 ∈ gone) ∧
        falls table gone child entry.2 = false := by
  simp only [without, Table.rows_filter, List.mem_filter, Bool.and_eq_true, Bool.not_eq_true',
    Bool.and_eq_false_iff, decide_eq_false_iff_not, not_and_or]

/-- Nobody refers to a row that goes with a deleted one. -/
theorem falls_of_parent {gone : List Int} {child parent : TableName} {row : Row}
    {reference : String × TableName} (hreference : reference ∈ (ddl child).references)
    (hparent : reference.2 = parent) : falls table gone parent row = false := by
  unfold falls
  rw [List.any_eq_false]
  intro onward honward
  exact absurd hparent ((cascades_references parent (mem_allTables parent) onward honward).2
    child (mem_allTables child) reference hreference)

theorem falls_tunerSessions (table : TableName) (gone : List Int) (row : Row) :
    falls table gone .tunerSessions row = false := rfl

theorem falls_tuningContexts (table : TableName) (gone : List Int) (row : Row) :
    falls table gone .tuningContexts row = false := rfl

/-- A deletion that leaves no reference behind keeps the database intact. -/
theorem Valid.without (hvalid : db.Valid) {gone : List Int}
    (hdangles : ¬ (db.without table gone).Dangles table gone) : (db.without table gone).Valid := by
  constructor
  case fits =>
    intro child entry hentry
    obtain ⟨hold, -, -⟩ := mem_without.mp hentry
    have hfits := hvalid.fits child entry hold
    refine ⟨hfits.notNull, fun reference hreference => ?_⟩
    rcases resolves_iff.mp (hfits.resolves reference hreference) with hnull | ⟨id, hid, hparent⟩
    · exact resolves_iff.mpr (.inl hnull)
    · refine resolves_iff.mpr (.inr ⟨id, hid, ?_⟩)
      obtain ⟨held, hheld, rfl⟩ := hparent
      refine ⟨held, mem_without.mpr ⟨hheld, fun hgone => hdangles ?_, ?_⟩, rfl⟩
      -- A row whose parent is gone would dangle.
      · refine ⟨child, mem_allTables child, entry, hentry, reference, hreference, hgone.1, ?_⟩
        simp [refersTo, hid, hgone.2]
      · exact falls_of_parent hreference rfl
  case columns =>
    exact fun child entry hentry => hvalid.columns child entry (mem_without.mp hentry).1
  case distinct =>
    intro child key hkey
    exact (hvalid.distinct child key hkey).sublist (List.filter_sublist.map Prod.snd)
  case journalResolves =>
    intro row hrow
    simp only [Database.without] at hrow
    split at hrow
    · rename_i hsessions
      obtain ⟨hold, hkept⟩ := List.mem_filter.mp hrow
      obtain ⟨held, hheld, hid⟩ := hvalid.journalResolves row hold
      refine ⟨held, mem_without.mpr ⟨hheld, fun hgone => ?_, falls_tunerSessions _ _ _⟩, hid⟩
      exact absurd (hid ▸ hgone.2) (by simpa using hkept)
    · rename_i hsessions
      obtain ⟨held, hheld, hid⟩ := hvalid.journalResolves row hrow
      exact ⟨held, mem_without.mpr ⟨hheld, fun hgone => hsessions hgone.1.symm,
        falls_tunerSessions _ _ _⟩, hid⟩
  case journalDistinct =>
    simp only [Database.without]
    split
    · exact hvalid.journalDistinct.sublist (List.filter_sublist.map JournalRow.key)
    · exact hvalid.journalDistinct
  case banksResolve =>
    intro bank hbank
    simp only [Database.without] at hbank
    split at hbank
    · rename_i hcontexts
      obtain ⟨hold, hkept⟩ := List.mem_filter.mp hbank
      obtain ⟨held, hheld, hid⟩ := hvalid.banksResolve bank hold
      refine ⟨held, mem_without.mpr ⟨hheld, fun hgone => ?_, falls_tuningContexts _ _ _⟩, hid⟩
      exact absurd (hid ▸ hgone.2) (by simpa using hkept)
    · rename_i hcontexts
      obtain ⟨held, hheld, hid⟩ := hvalid.banksResolve bank hbank
      exact ⟨held, mem_without.mpr ⟨hheld, fun hgone => hcontexts hgone.1.symm,
        falls_tuningContexts _ _ _⟩, hid⟩
  case banksDistinct =>
    simp only [Database.without]
    split
    · exact hvalid.banksDistinct.sublist (List.filter_sublist.map BankRow.key)
    · exact hvalid.banksDistinct

theorem Valid.deleteWhere (hvalid : db.Valid) {which : Int × Row → Bool} {left : Database}
    (hdeleted : db.deleteWhere table which = .ok left) : left.Valid := by
  unfold Database.deleteWhere at hdeleted
  simp only at hdeleted
  split at hdeleted
  · cases hdeleted
  · rename_i hdangles
    cases hdeleted
    exact hvalid.without hdangles

end Database

/-! ## Calls -/

theorem Database.Valid.settled (hvalid : db.Valid) {result : Except Refusal Database}
    (hresult : ∀ left, result = .ok left → left.Valid) : (settled db result).Valid := by
  unfold History.settled
  cases result with
  | ok left => exact hresult left rfl
  | error refusal => exact hvalid

theorem Database.Valid.insertRecord (hvalid : db.Valid) {record : Row} {id : Int}
    {inserted : Database} (hinserted : insertRecord db table record = .ok (id, inserted)) :
    inserted.Valid := by
  unfold History.insertRecord at hinserted
  split at hinserted
  · rename_i stored hstored
    cases hinserted
    exact hvalid.insert hstored
  · cases hinserted

theorem Database.Valid.stored (hvalid : db.Valid) (table : TableName) (record : Row) :
    (History.stored db (History.insertRecord db table record)).Valid := by
  unfold History.stored
  cases hinserted : History.insertRecord db table record with
  | ok result => exact hvalid.insertRecord hinserted
  | error refusal => exact hvalid

theorem Database.Valid.insertTelemetryBatch (hvalid : db.Valid) (now : String)
    (samples : List Row) : (insertTelemetryBatch db now samples).2.Valid := by
  induction samples generalizing db with
  | nil => exact hvalid
  | cons sample rest ih =>
      unfold History.insertTelemetryBatch
      split
      · rename_i id inserted hinserted
        exact ih (hvalid.insertRecord hinserted)
      · exact hvalid

theorem Database.Valid.getOrCreateContext (hvalid : db.Valid) (now : String) (ctx : Row) :
    (History.stored db (History.getOrCreateContext db now ctx)).Valid := by
  unfold History.getOrCreateContext
  simp only
  split
  · exact hvalid
  · rename_i id inserted hinserted
    exact hvalid.insert (insertOrIgnore_some hinserted).1
  · split
    · exact hvalid
    · exact hvalid

/-- An upsert writes a whole row, under the key and the session of the one it replaces. -/
theorem Database.Valid.upsertTunerCoreState (hvalid : db.Valid) {now : String} {sessionId : Int}
    {state : Row} {upserted : Database}
    (hupserted : upsertTunerCoreState db now sessionId state = .ok upserted) :
    upserted.Valid := by
  unfold History.upsertTunerCoreState at hupserted
  split at hupserted
  · cases hupserted
  simp only at hupserted
  generalize hrow : project .tunerCoreStates (setColumns state
    [("session_id", .integer sessionId), ("updated_at", .text now)]) = row at hupserted
  split at hupserted
  · cases hupserted
  rename_i hnull
  push Not at hnull
  split at hupserted
  · cases hupserted
    have hsame : ∀ entry : Int × Row, decide (SameKey ["session_id", "core_id"] entry.2 row) = true →
        ∀ column ∈ ["session_id", "core_id"], row column = entry.2 column :=
      fun entry hkey column hcolumn => (of_decide_eq_true hkey column hcolumn).symm
    refine hvalid.modify (fun entry hentry column hcolumn hnot => ?_)
      (fun entry hentry column hcolumn => ?_) (fun entry hentry reference hreference => ?_)
      fun entry hentry key hkey column hcolumn => ?_
    · split
      · exact hnull column hcolumn hnot
      · exact (hvalid.fits _ entry hentry).notNull column hcolumn hnot
    · split
      · rw [← hrow]
        exact Database.project_eq_null hcolumn
      · exact hvalid.columns _ entry hentry column hcolumn
    · obtain rfl : reference = ("session_id", .tunerSessions) := by
        simpa [ddl, tunerCoreStatesDdl] using hreference
      split
      · rename_i hkey
        exact hsame entry hkey _ (by simp)
      · rfl
    · obtain rfl : key = ["session_id", "core_id"] := by
        simpa [ddl, tunerCoreStatesDdl] using hkey
      split
      · rename_i hkey
        exact hsame entry hkey column hcolumn
      · rfl
  · split at hupserted
    · rename_i inserted hinserted
      cases hupserted
      rw [← hrow] at hinserted
      exact hvalid.insert hinserted
    · cases hupserted

theorem Database.Valid.withJournal (hvalid : db.Valid) {journal : List JournalRow}
    (hresolves : ∀ row ∈ journal, db.HasId .tunerSessions row.sessionId)
    (hdistinct : (journal.map JournalRow.key).Nodup) : ({ db with journal } : Database).Valid :=
  ⟨fun table entry hentry => (hvalid.fits table entry hentry).mono fun _ _ hid => hid,
    hvalid.columns, hvalid.distinct, hresolves, hdistinct, hvalid.banksResolve,
    hvalid.banksDistinct⟩

theorem Database.Valid.withBanks (hvalid : db.Valid) {banks : List BankRow}
    (hresolves : ∀ bank ∈ banks, db.HasId .tuningContexts bank.contextId)
    (hdistinct : (banks.map BankRow.key).Nodup) : ({ db with banks } : Database).Valid :=
  ⟨fun table entry hentry => (hvalid.fits table entry hentry).mono fun _ _ hid => hid,
    hvalid.columns, hvalid.distinct, hvalid.journalResolves, hvalid.journalDistinct, hresolves,
    hdistinct⟩

/-- Rows that change under their keys keep them. -/
theorem map_key_of_keeps {α κ : Type} {key : α → κ} {change : α → α}
    (hkeeps : ∀ row, key (change row) = key row) (rows : List α) :
    (rows.map change).map key = rows.map key := by
  rw [List.map_map]
  exact List.map_congr_left fun row _ => hkeeps row

theorem Database.Valid.journalCoIntent (hvalid : db.Valid) {now : String}
    {sessionId coreId value : Int} {survived : Bool} {written : Database}
    (hwritten : journalCoIntent db now sessionId coreId value survived = .ok written) :
    written.Valid := by
  unfold History.journalCoIntent at hwritten
  simp only at hwritten
  generalize hrow : JournalRow.mk sessionId coreId value (if survived then 1 else 0) now = row
    at hwritten
  have hsession : row.sessionId = sessionId := by rw [← hrow]
  split at hwritten
  · cases hwritten
    have hkeeps : ∀ held : JournalRow, (if held.key = row.key then row else held).key = held.key :=
      fun held => by
        split
        · rename_i hkey
          exact hkey.symm
        · rfl
    refine hvalid.withJournal (fun moved hmoved => ?_) ?_
    · obtain ⟨held, hheld, rfl⟩ := List.mem_map.mp hmoved
      rw [show JournalRow.sessionId _ = held.sessionId from congrArg Prod.fst (hkeeps held)]
      exact hvalid.journalResolves held hheld
    · rw [map_key_of_keeps hkeeps]
      exact hvalid.journalDistinct
  · rename_i hfree
    split at hwritten
    · cases hwritten
    · rename_i hparent
      cases hwritten
      refine hvalid.withJournal (fun moved hmoved => ?_) ?_
      · rcases List.mem_append.mp hmoved with hold | hnew
        · exact hvalid.journalResolves moved hold
        · rw [List.mem_singleton.mp hnew, hsession]
          exact not_not.mp hparent
      · rw [List.map_append, List.map_singleton]
        exact List.nodup_append.mpr ⟨hvalid.journalDistinct, List.nodup_singleton _,
          fun key hkey new hnew heq => hfree (by
            rw [List.mem_singleton] at hnew
            rw [← hnew, ← heq]
            exact List.mem_map.mp hkey)⟩

theorem Database.Valid.journalMarkSurvived (hvalid : db.Valid) (now : String) (sessionId : Int)
    (excludeCores : List Int) : (journalMarkSurvived db now sessionId excludeCores).Valid := by
  have hkeeps : ∀ row : JournalRow, (if row.sessionId = sessionId ∧ row.coreId ∉ excludeCores then
      { row with survived := 1, updatedAt := now } else row : JournalRow).key = row.key :=
    fun row => by
      split
      · rfl
      · rfl
  refine hvalid.withJournal (fun moved hmoved => ?_) ?_
  · obtain ⟨held, hheld, rfl⟩ := List.mem_map.mp hmoved
    rw [show JournalRow.sessionId _ = held.sessionId from congrArg Prod.fst (hkeeps held)]
    exact hvalid.journalResolves held hheld
  · rw [map_key_of_keeps hkeeps]
    exact hvalid.journalDistinct

theorem Database.Valid.bankRegimeTime (hvalid : db.Valid) {now : String} {contextId coreId : Int}
    {regime : String} {offsetValue : Int} {seconds : ℚ} {banked : Database}
    (hbanked : bankRegimeTime db now contextId coreId regime offsetValue seconds = .ok banked) :
    banked.Valid := by
  unfold History.bankRegimeTime at hbanked
  simp only at hbanked
  generalize hbank : BankRow.mk contextId coreId regime offsetValue seconds now = bank at hbanked
  have hcontext : bank.contextId = contextId := by rw [← hbank]
  split at hbanked
  · cases hbanked
    have hkeeps : ∀ held : BankRow, (if held.key = bank.key then
        { held with cleanSeconds := held.cleanSeconds + seconds, updatedAt := now }
        else held : BankRow).key = held.key := fun held => by
      split
      · rfl
      · rfl
    refine hvalid.withBanks (fun moved hmoved => ?_) ?_
    · obtain ⟨held, hheld, rfl⟩ := List.mem_map.mp hmoved
      rw [show BankRow.contextId _ = held.contextId from congrArg Prod.fst (hkeeps held)]
      exact hvalid.banksResolve held hheld
    · rw [map_key_of_keeps hkeeps]
      exact hvalid.banksDistinct
  · rename_i hfree
    split at hbanked
    · cases hbanked
    · rename_i hparent
      cases hbanked
      refine hvalid.withBanks (fun moved hmoved => ?_) ?_
      · rcases List.mem_append.mp hmoved with hold | hnew
        · exact hvalid.banksResolve moved hold
        · rw [List.mem_singleton.mp hnew, hcontext]
          exact not_not.mp hparent
      · rw [List.map_append, List.map_singleton]
        exact List.nodup_append.mpr ⟨hvalid.banksDistinct, List.nodup_singleton _,
          fun key hkey new hnew heq => hfree (by
            rw [List.mem_singleton] at hnew
            rw [← hnew, ← heq]
            exact List.mem_map.mp hkey)⟩

theorem Database.Valid.clearRegimeBanks (hvalid : db.Valid) (contextId coreId : Int) :
    (clearRegimeBanks db contextId coreId).Valid :=
  hvalid.withBanks (fun bank hbank => hvalid.banksResolve bank (List.mem_of_mem_filter hbank))
    (hvalid.banksDistinct.sublist (List.filter_sublist.map BankRow.key))

theorem Database.Valid.orRefuse (hvalid : db.Valid) {result : Except SqlError Database}
    (hresult : ∀ left, result = .ok left → left.Valid) :
    (History.settled db (History.orRefuse result)).Valid := by
  cases result with
  | ok left => exact hresult left rfl
  | error error => exact hvalid

theorem Database.Valid.deleteIdle (hvalid : db.Valid) (table : TableName)
    (statuses : List String) (id : Int) :
    (History.settled db (History.deleteIdle db table statuses id)).Valid := by
  unfold History.deleteIdle
  split
  · exact hvalid
  · exact hvalid.orRefuse fun left hleft => hvalid.deleteWhere hleft

theorem Database.Valid.deleteContextCascade (hvalid : db.Valid) (contextId : Int) :
    (History.settled db (History.deleteContextCascade db contextId)).Valid := by
  unfold History.deleteContextCascade
  split
  · exact hvalid
  · split
    · exact hvalid
    · refine hvalid.orRefuse fun left hleft => ?_
      obtain ⟨withoutRuns, hruns, hleft⟩ := bind_eq_ok hleft
      obtain ⟨withoutSessions, hsessions, hleft⟩ := bind_eq_ok hleft
      exact ((hvalid.deleteWhere hruns).deleteWhere hsessions).deleteWhere hleft

theorem Database.Valid.mergeFrom (hvalid : db.Valid) (faults : Faults) {src : Database}
    (hsrc : src.Valid) : (History.mergeFrom faults db src).2.Valid := by
  unfold History.mergeFrom
  cases hrun : mergeStatements faults db src with
  | error error => exact hvalid
  | ok result =>
      obtain ⟨passes⟩ := mergeStatements_ok hrun
      obtain ⟨copy, hmerged⟩ := passes.lossless hvalid hsrc
      exact hmerged.valid hvalid hsrc

/-- A merge is from a database that is intact itself. -/
def Call.FromValid : Call → Prop
  | .mergeFrom _ src => src.Valid
  | _ => True

/-- The columns of a core result that an update sets. -/
theorem settable_resultUpdate (update : ResultUpdate) : Settable .coreResults update.sets := by
  intro set hset
  obtain ⟨given, hgiven, hsome⟩ := List.mem_filterMap.mp hset
  simp only [id_eq] at hsome
  subst hsome
  simp only [List.mem_cons, List.not_mem_nil, or_false] at hgiven
  rcases hgiven with h | h | h | h | h | h | h | h | h | h
  all_goals
    obtain ⟨value, -, rfl⟩ := Option.map_eq_some_iff.mp h.symm
    simp [ddl, coreResultsDdl]

theorem Database.Valid.perform (hvalid : db.Valid) (now : String) {call : Call}
    (hcall : call.FromValid) : (History.perform db now call).Valid := by
  -- The statements behind the calls are few: what each keeps is proved once, and cited here.
  cases call with
  | createRun run => exact hvalid.stored _ _
  | finishRun runId summary => exact hvalid.updateWhere (of_decide_eq_true rfl) _
  | deleteRun runId => exact hvalid.deleteIdle _ _ _
  | insertCoreResult rec => exact hvalid.stored _ _
  | updateCoreResult resultId update => exact hvalid.updateWhere (settable_resultUpdate update) _
  | insertEvent event => exact hvalid.stored _ _
  | insertTelemetryBatch samples => exact hvalid.insertTelemetryBatch now samples
  | getOrCreateContext ctx => exact hvalid.getOrCreateContext now ctx
  | updateContextNotes contextId notes => exact hvalid.updateWhere (of_decide_eq_true rfl) _
  | createTunerSession configJson biosVersion cpuModel appVersion contextId =>
      exact hvalid.stored _ _
  | updateTunerSessionStatus sessionId status => exact hvalid.updateWhere (of_decide_eq_true rfl) _
  | setUnattributedCrashes sessionId value => exact hvalid.updateWhere (of_decide_eq_true rfl) _
  | setValidationPosition sessionId stage index half dirty requeueJson =>
      exact hvalid.updateWhere (of_decide_eq_true rfl) _
  | setEndurancePosition sessionId round workload index =>
      exact hvalid.updateWhere (of_decide_eq_true rfl) _
  | setSessionBoot sessionId bootId => exact hvalid.updateWhere (of_decide_eq_true rfl) _
  | updateTunerSessionConfig sessionId configJson =>
      exact hvalid.updateWhere (of_decide_eq_true rfl) _
  | setHuntState sessionId blob => exact hvalid.updateWhere (of_decide_eq_true rfl) _
  | setResumeCrashStreak sessionId value => exact hvalid.updateWhere (of_decide_eq_true rfl) _
  | insertTunerEvent sessionId message bootId severity => exact hvalid.stored _ _
  | insertTunerTestLog sessionId entry => exact hvalid.stored _ _
  | upsertTunerCoreState sessionId state =>
      exact hvalid.settled fun _ hupserted => hvalid.upsertTunerCoreState hupserted
  | journalCoIntent sessionId coreId value survived =>
      exact hvalid.settled fun _ hwritten => hvalid.journalCoIntent hwritten
  | journalMarkSurvived sessionId excludeCores =>
      exact hvalid.journalMarkSurvived now sessionId excludeCores
  | bankRegimeTime contextId coreId regime offsetValue seconds =>
      exact hvalid.settled fun _ hbanked => hvalid.bankRegimeTime hbanked
  | clearRegimeBanks contextId coreId => exact hvalid.clearRegimeBanks contextId coreId
  | deleteTunerSession sessionId => exact hvalid.deleteIdle _ _ _
  | deleteContextCascade contextId => exact hvalid.deleteContextCascade contextId
  | deleteOrphanedContexts => exact hvalid.orRefuse fun _ hleft => hvalid.deleteWhere hleft
  | recoverIncompleteRuns => exact hvalid.updateWhere (of_decide_eq_true rfl) _
  | purgeBefore isoDate => exact hvalid.orRefuse fun _ hleft => hvalid.deleteWhere hleft
  | mergeFrom faults src => exact hvalid.mergeFrom faults hcall

/-- The database after a series of calls, each with its time. -/
def performAll (db : Database) (calls : List (String × Call)) : Database :=
  calls.foldl (fun db call => perform db call.1 call.2) db

/-- **Integrity.**  After every series of calls, whichever of them raise, the database meets its
schema, and every reference points at a row that is there. -/
theorem performAll_valid (hvalid : db.Valid) {calls : List (String × Call)}
    (hcalls : ∀ call ∈ calls, call.2.FromValid) : (performAll db calls).Valid := by
  induction calls generalizing db with
  | nil => exact hvalid
  | cons call rest ih =>
      rw [List.forall_mem_cons] at hcalls
      exact ih (hvalid.perform call.1 hcalls.1) hcalls.2

/-- A new session in a context, which cannot be deleted then, and a merge that fails. -/
theorem performAll_valid_sample : (performAll (sampleDatabase 600)
    [("2026-07-21", .createTunerSession "\x7b\x7d" "" "" "" (some 1)),
      ("2026-07-21", .recoverIncompleteRuns),
      ("2026-07-22", .mergeFrom (fun _ => true) (sampleDatabase 300)),
      ("2026-07-22", .deleteContextCascade 1)]).Valid := by
  refine performAll_valid (sampleDatabase_valid 600) ?_
  simp [Call.FromValid, sampleDatabase_valid 300]

end History
end CoreCycler
