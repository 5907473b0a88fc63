import CoreCycler.History.Merge
import CoreCycler.Library.Grouping
import Mathlib.Tactic.Ring

/-!
# What the passes of a merge leave

Each pass of a merge adds to one part of the destination: a copying loop appends the copies of
a table's rows, the contexts are appended or found again, the journal rows are moved to their
new sessions and the banks are added up.  For each pass, what it leaves when it completes, and
that it completes on rows that meet the constraints.
-/

namespace CoreCycler
namespace History

open Library Library.Tables

/-! ## One insertion -/

namespace Database

variable {db : Database} {table : TableName} {row : Row}

/-- An insertion succeeds exactly for a row that meets the constraints, and appends it. -/
theorem insert_eq_ok {inserted : Database} :
    db.insert table row = .ok inserted ↔
      db.Fits table row ∧
        (∀ key ∈ (ddl table).unique, ∀ entry ∈ (db.tables table).rows,
          ¬ SameKey key entry.2 row) ∧
        inserted = db.append table row := by
  unfold insert
  split_ifs with hnull hunique hreference
  · refine ⟨nofun, fun ⟨hfits, _⟩ => ?_⟩
    obtain ⟨column, hcolumn, hnot, heq⟩ := hnull
    exact absurd heq (hfits.notNull column hcolumn hnot)
  · refine ⟨nofun, fun ⟨_, hfree, _⟩ => ?_⟩
    obtain ⟨key, hkey, entry, hentry, hsame⟩ := hunique
    exact absurd hsame (hfree key hkey entry hentry)
  · refine ⟨nofun, fun ⟨hfits, _⟩ => ?_⟩
    obtain ⟨reference, hmem, hdangling⟩ := hreference
    exact absurd (hfits.resolves reference hmem) hdangling
  · push Not at hnull hunique hreference
    constructor
    · rintro ⟨⟩
      exact ⟨⟨hnull, hreference⟩, hunique, rfl⟩
    · rintro ⟨-, -, rfl⟩
      rfl

/-- An ID stays one. -/
theorem HasId.append {id : Int} {other : TableName} (hid : db.HasId other id) (row : Row) :
    (db.append table row).HasId other id := by
  obtain ⟨entry, hentry, heq⟩ := hid
  by_cases hne : other = table
  · subst hne
    exact ⟨entry, by simpa using .inl hentry, heq⟩
  · exact ⟨entry, by rwa [tables_append_of_ne db row hne], heq⟩

theorem resolves_iff {value : Value} {parent : TableName} :
    db.Resolves parent value ↔
      value = .null ∨ ∃ id, value = .integer id ∧ db.HasId parent id := by
  cases value <;> simp [Resolves]

theorem Resolves.mono {later : Database} {value : Value} {parent : TableName}
    (hlater : ∀ id, db.HasId parent id → later.HasId parent id)
    (hvalue : db.Resolves parent value) : later.Resolves parent value := by
  rcases resolves_iff.mp hvalue with hnull | ⟨id, hid, hparent⟩
  · exact resolves_iff.mpr (.inl hnull)
  · exact resolves_iff.mpr (.inr ⟨id, hid, hlater id hparent⟩)

/-- A row keeps meeting the constraints while no row it refers to goes. -/
theorem Fits.mono {later : Database} (hfits : db.Fits table row)
    (hlater : ∀ parent id, db.HasId parent id → later.HasId parent id) :
    later.Fits table row :=
  ⟨hfits.notNull, fun reference hmem => (hfits.resolves reference hmem).mono (hlater _)⟩

end Database

/-- Distinct rows stay distinct behind one that agrees with none of them. -/
theorem distinct_concat {table : TableName} {rows : List Row} {row : Row} :
    Distinct table (rows ++ [row]) ↔
      Distinct table rows ∧
        ∀ key ∈ (ddl table).unique, ∀ other ∈ rows, ¬ SameKey key other row := by
  simp only [Distinct, List.pairwise_append, List.pairwise_singleton, true_and,
    List.mem_singleton, forall_eq]
  exact ⟨fun hall => ⟨fun key hkey => (hall key hkey).1, fun key hkey => (hall key hkey).2⟩,
    fun hall key hkey => ⟨hall.1 key hkey, hall.2 key hkey⟩⟩

theorem Distinct.of_append {table : TableName} {rows others : List Row}
    (hdistinct : Distinct table (rows ++ others)) : Distinct table rows :=
  fun key hkey => (List.pairwise_append.mp (hdistinct key hkey)).1

/-! ## Copying a table -/

section CopyRows

variable {faults : Faults} {table : TableName} {remap : Row → Option Row} {copy : Row → Row}

/-- What a complete copy of a table leaves: the rows behind the old ones, each under the ID its
map entry names; nothing else changes. -/
structure Copied (table : TableName) (copy : Row → Row) (rows : List (Int × Row))
    (db copied : Database) (map : IdMap) : Prop where
  stored : (copied.tables table).rows =
    (db.tables table).rows ++ rows.map fun entry => ((map entry.1).getD 0, copy entry.2)
  mapped : ∀ entry ∈ rows, (map entry.1).isSome = true
  others : ∀ other ≠ table, copied.tables other = db.tables other
  journal : copied.journal = db.journal
  banks : copied.banks = db.banks

/-- A complete run of the copying loop copies every row once. -/
theorem copyRows_copied {rows : List (Int × Row)} :
    ∀ {db copied : Database} {map final : IdMap}, (rows.map Prod.fst).Nodup →
      (∀ entry ∈ rows, remap entry.2 = some (copy entry.2)) →
      copyRows faults table remap rows db map = .ok (copied, final) →
      Copied table copy rows db copied final ∧
        ∀ id ∉ rows.map Prod.fst, final id = map id := by
  induction rows with
  | nil =>
      intro db copied map final _ _ hrun
      cases hrun
      exact ⟨⟨by simp, nofun, fun _ _ => rfl, rfl, rfl⟩, fun _ _ => rfl⟩
  | cons entry rest ih =>
      obtain ⟨id, row⟩ := entry
      intro db copied map final hnodup hremap hrun
      obtain ⟨hfresh, hrest⟩ := List.nodup_cons.mp hnodup
      obtain ⟨hrow, hrows⟩ := List.forall_mem_cons.mp hremap
      rw [copyRows, hrow] at hrun
      by_cases hfault : faults (.insertRow table id) = true
      · simp [hfault] at hrun
      · cases hinsert : db.insert table (copy row) with
        | error error => simp [hfault, hinsert] at hrun
        | ok inserted =>
            obtain ⟨-, -, rfl⟩ := Database.insert_eq_ok.mp hinsert
            simp only [hfault, Bool.false_eq_true, if_false, hinsert] at hrun
            obtain ⟨hcopied, hkept⟩ := ih hrest hrows hrun
            have hid : final id = some ((db.tables table).seq + 1) := by
              rw [hkept id hfresh]
              simp
            refine ⟨⟨?_, ?_, ?_, hcopied.journal, hcopied.banks⟩, fun other hother => ?_⟩
            · rw [hcopied.stored, Database.tables_append, Table.rows_append, List.map_cons, hid,
                List.append_assoc]
              rfl
            · rw [List.forall_mem_cons, hid]
              exact ⟨rfl, hcopied.mapped⟩
            · intro other hother
              rw [hcopied.others other hother, Database.tables_append_of_ne db _ hother]
            · obtain ⟨hne, hnot⟩ := not_or.mp (List.mem_cons.not.mp hother)
              rw [hkept other hnot, IdMap.set_of_ne map hne]

/-- The copying loop completes on rows that meet the constraints. -/
theorem copyRows_complete {rows : List (Int × Row)} :
    ∀ {db : Database} {map : IdMap}, (∀ id, faults (.insertRow table id) = false) →
      (∀ entry ∈ rows, remap entry.2 = some (copy entry.2)) →
      (∀ entry ∈ rows, db.Fits table (copy entry.2)) →
      Distinct table ((db.tables table).rows.map Prod.snd ++ rows.map fun e => copy e.2) →
      ∃ copied final, copyRows faults table remap rows db map = .ok (copied, final) := by
  induction rows with
  | nil => exact fun _ _ _ _ => ⟨_, _, rfl⟩
  | cons entry rest ih =>
      obtain ⟨id, row⟩ := entry
      intro db map hfaults hremap hfits hdistinct
      obtain ⟨hrow, hrows⟩ := List.forall_mem_cons.mp hremap
      obtain ⟨hfit, hfitRest⟩ := List.forall_mem_cons.mp hfits
      rw [List.map_cons, List.append_cons] at hdistinct
      obtain ⟨-, hfree⟩ := distinct_concat.mp hdistinct.of_append
      have hinsert : db.insert table (copy row) = .ok (db.append table (copy row)) :=
        Database.insert_eq_ok.mpr ⟨hfit, fun key hkey entry hentry =>
          hfree key hkey entry.2 (List.mem_map.mpr ⟨entry, hentry, rfl⟩), rfl⟩
      rw [copyRows, hrow]
      simp only [hfaults id, Bool.false_eq_true, if_false, hinsert]
      refine ih hfaults hrows (fun other hother => (hfitRest other hother).mono fun _ _ hid => hid.append _) ?_
      rw [Database.tables_append, Table.rows_append, List.map_append]
      exact hdistinct

end CopyRows

/-! ## The contexts -/

section Contexts

variable {faults : Faults}

/-- A row of a table is what an insertion stores of it. -/
theorem project_eq {table : TableName} {row : Row}
    (hcolumns : ∀ column ∉ (ddl table).columns, row column = .null) :
    project table row = row := by
  funext column
  unfold project
  split_ifs with hmem
  · rfl
  · exact (hcolumns column fun hin => hmem ((insertColumns_perm table).mem_iff.mpr hin)).symm

theorem Database.insertOrIgnore_some {db inserted : Database} {table : TableName} {row : Row}
    {new : Int} (hok : db.insertOrIgnore table row = .ok (some new, inserted)) :
    db.insert table row = .ok inserted ∧ new = (inserted.tables table).seq := by
  unfold insertOrIgnore at hok
  cases hinsert : db.insert table row with
  | ok stored =>
      simp only [hinsert] at hok
      cases hok
      exact ⟨rfl, rfl⟩
  | error error => cases error <;> simp [hinsert] at hok

theorem Database.insertOrIgnore_none {db kept : Database} {table : TableName} {row : Row}
    (hok : db.insertOrIgnore table row = .ok (none, kept)) : kept = db := by
  unfold insertOrIgnore at hok
  cases hinsert : db.insert table row with
  | ok stored => simp [hinsert] at hok
  | error error =>
      cases error with
      | notNull => simpa [hinsert, eq_comm] using hok
      | unique => simpa [hinsert, eq_comm] using hok
      | foreignKey => simp [hinsert] at hok
      | missing => simp [hinsert] at hok
      | fault => simp [hinsert] at hok

/-- A context is copied behind the others, or one with its key is there. -/
theorem mergeContext_ok {db stored : Database} {id new : Int} {row : Row} {copied : Bool}
    (hrow : project .tuningContexts row = row)
    (hok : mergeContext faults db id row = .ok (stored, new, copied)) :
    ((∀ key ∈ (ddl .tuningContexts).unique,
        ∀ entry ∈ (db.tables .tuningContexts).rows, ¬ SameKey key entry.2 row) ∧
      stored = db.append .tuningContexts row ∧ new = (db.tables .tuningContexts).seq + 1) ∨
    (stored = db ∧ ∃ held ∈ (db.tables .tuningContexts).rows,
      held.1 = new ∧ SameKey contextKey held.2 row) := by
  unfold mergeContext at hok
  rw [hrow] at hok
  by_cases hfault : faults (.insertRow .tuningContexts id) = true
  · simp [hfault] at hok
  simp only [hfault, Bool.false_eq_true, if_false] at hok
  cases hignore : db.insertOrIgnore .tuningContexts row with
  | error error => simp [hignore] at hok
  | ok result =>
      obtain ⟨_ | inserted, kept⟩ := result
      · -- kept out by a context of its key
        cases Database.insertOrIgnore_none hignore
        by_cases hselect : faults (.selectContext id) = true
        · simp [hignore, hselect] at hok
        cases hfind : (db.tables .tuningContexts).rows.find?
            fun entry => decide (SameKey contextKey entry.2 row) with
        | none => simp [hignore, hselect, hfind] at hok
        | some existing =>
            simp only [hignore, hselect, Bool.false_eq_true, if_false, hfind] at hok
            cases hok
            exact .inr ⟨rfl, existing, List.mem_of_find?_eq_some hfind, rfl,
              by simpa using List.find?_some hfind⟩
      · simp only [hignore] at hok
        cases hok
        obtain ⟨hinsert, rfl⟩ := Database.insertOrIgnore_some hignore
        obtain ⟨-, hfree, rfl⟩ := Database.insert_eq_ok.mp hinsert
        exact .inl ⟨hfree, rfl, by simp⟩

/-- What a complete pass over the source's contexts leaves. -/
structure ContextsMerged (rows : List (Int × Row)) (db merged : Database) (map : IdMap) :
    Prop where
  /-- Some of the contexts are copied behind the old ones. -/
  stored : ∃ added : List (Int × Row), added.Sublist rows ∧
    (merged.tables .tuningContexts).rows = (db.tables .tuningContexts).rows ++
      added.map fun entry => ((map entry.1).getD 0, entry.2)
  /-- Every context is there under the ID its map entry names. -/
  found : ∀ entry ∈ rows, ∃ held ∈ (merged.tables .tuningContexts).rows,
    map entry.1 = some held.1 ∧ SameKey contextKey held.2 entry.2
  distinct : Distinct .tuningContexts ((db.tables .tuningContexts).rows.map Prod.snd) →
    Distinct .tuningContexts ((merged.tables .tuningContexts).rows.map Prod.snd)
  others : ∀ other ≠ TableName.tuningContexts, merged.tables other = db.tables other
  journal : merged.journal = db.journal
  banks : merged.banks = db.banks

/-- A copied context in front of the rest of a pass. -/
theorem ContextsMerged.cons_copied {rows : List (Int × Row)} {db merged : Database}
    {map : IdMap} {id : Int} {row : Row}
    (hfree : ∀ key ∈ (ddl .tuningContexts).unique,
      ∀ entry ∈ (db.tables .tuningContexts).rows, ¬ SameKey key entry.2 row)
    (hmerged : ContextsMerged rows (db.append .tuningContexts row) merged map)
    (hid : map id = some ((db.tables .tuningContexts).seq + 1)) :
    ContextsMerged ((id, row) :: rows) db merged map := by
  obtain ⟨added, hadded, hstored⟩ := hmerged.stored
  rw [Database.tables_append, Table.rows_append, List.append_assoc] at hstored
  have hnew : ((db.tables .tuningContexts).seq + 1, row) ∈
      (merged.tables .tuningContexts).rows := by
    rw [hstored]
    simp
  refine ⟨⟨(id, row) :: added, hadded.cons_cons _, ?_⟩, ?_, ?_, ?_, hmerged.journal,
    hmerged.banks⟩
  · rw [hstored, List.map_cons, hid]
    rfl
  · exact List.forall_mem_cons.mpr ⟨⟨_, hnew, hid, fun _ _ => rfl⟩, hmerged.found⟩
  · intro hdistinct
    refine hmerged.distinct ?_
    rw [Database.tables_append, Table.rows_append, List.map_append]
    refine distinct_concat.mpr ⟨hdistinct, fun key hkey other hother => ?_⟩
    obtain ⟨entry, hentry, rfl⟩ := List.mem_map.mp hother
    exact hfree key hkey entry hentry
  · intro other hother
    rw [hmerged.others other hother, Database.tables_append_of_ne db _ hother]

/-- A context that is found again in front of the rest of a pass. -/
theorem ContextsMerged.cons_found {rows : List (Int × Row)} {db merged : Database}
    {map : IdMap} {id : Int} {row : Row} {held : Int × Row}
    (hmerged : ContextsMerged rows db merged map)
    (hheld : held ∈ (db.tables .tuningContexts).rows) (hid : map id = some held.1)
    (hsame : SameKey contextKey held.2 row) :
    ContextsMerged ((id, row) :: rows) db merged map := by
  obtain ⟨added, hadded, hstored⟩ := hmerged.stored
  refine ⟨⟨added, hadded.cons _, hstored⟩, ?_, hmerged.distinct, hmerged.others,
    hmerged.journal, hmerged.banks⟩
  refine List.forall_mem_cons.mpr ⟨⟨held, ?_, hid, hsame⟩, hmerged.found⟩
  rw [hstored]
  exact List.mem_append_left _ hheld

theorem mergeContexts_merged {rows : List (Int × Row)} :
    ∀ {db merged : Database} {map final : IdMap} {count total : Nat},
      (rows.map Prod.fst).Nodup →
      (∀ entry ∈ rows, project .tuningContexts entry.2 = entry.2) →
      mergeContexts faults rows db map count = .ok (merged, final, total) →
      ContextsMerged rows db merged final ∧ ∀ id ∉ rows.map Prod.fst, final id = map id := by
  induction rows with
  | nil =>
      intro db merged map final count total _ _ hrun
      cases hrun
      exact ⟨⟨⟨[], List.Sublist.refl _, by simp⟩, nofun, id, fun _ _ => rfl, rfl, rfl⟩,
        fun _ _ => rfl⟩
  | cons entry rest ih =>
      obtain ⟨id, row⟩ := entry
      intro db merged map final count total hnodup hproject hrun
      obtain ⟨hfresh, hrest⟩ := List.nodup_cons.mp hnodup
      obtain ⟨hrow, hrows⟩ := List.forall_mem_cons.mp hproject
      rw [mergeContexts] at hrun
      cases hstep : mergeContext faults db id row with
      | error error => simp [hstep] at hrun
      | ok result =>
          obtain ⟨stored, new, copied⟩ := result
          simp only [hstep] at hrun
          obtain ⟨hmerged, hkept⟩ := ih hrest hrows hrun
          have hid : final id = some new := by rw [hkept id hfresh, IdMap.set_self]
          refine ⟨?_, fun key hkey => ?_⟩
          · rcases mergeContext_ok hrow hstep with ⟨hfree, rfl, rfl⟩ | ⟨rfl, held, hheld, rfl, hsame⟩
            · exact hmerged.cons_copied hfree hid
            · exact hmerged.cons_found hheld hid hsame
          · obtain ⟨hne, hnot⟩ := not_or.mp (List.mem_cons.not.mp hkey)
            rw [hkept key hnot, IdMap.set_of_ne map hne]

/-- The pass over the contexts completes on rows without missing values. -/
theorem mergeContexts_complete {rows : List (Int × Row)}
    (hfaults : ∀ statement, faults statement = false) :
    ∀ {db : Database} {map : IdMap} {count : Nat},
      (∀ entry ∈ rows, project .tuningContexts entry.2 = entry.2) →
      (∀ entry ∈ rows, ∀ column ∈ (ddl .tuningContexts).columns,
        column ∉ (ddl .tuningContexts).nullable → entry.2 column ≠ .null) →
      ∃ result, mergeContexts faults rows db map count = .ok result := by
  induction rows with
  | nil => exact fun _ _ => ⟨_, rfl⟩
  | cons entry rest ih =>
      obtain ⟨id, row⟩ := entry
      intro db map count hproject hnotNull
      obtain ⟨hrow, hrows⟩ := List.forall_mem_cons.mp hproject
      obtain ⟨hfull, hrest⟩ := List.forall_mem_cons.mp hnotNull
      have hstep : ∃ result, mergeContext faults db id row = .ok result := by
        unfold mergeContext
        simp only [hrow, hfaults, Bool.false_eq_true, if_false, Database.insertOrIgnore]
        by_cases htaken : ∃ entry ∈ (db.tables .tuningContexts).rows,
            SameKey contextKey entry.2 row
        · have hunique : db.insert .tuningContexts row = .error .unique := by
            unfold Database.insert
            rw [if_neg, if_pos]
            · exact ⟨contextKey, List.mem_singleton.mpr rfl, htaken⟩
            · rintro ⟨column, hcolumn, hnot, hnull⟩
              exact hfull column hcolumn hnot hnull
          simp only [hunique]
          obtain ⟨held, hheld, hsame⟩ := htaken
          cases hfind : (db.tables .tuningContexts).rows.find?
              fun entry => decide (SameKey contextKey entry.2 row) with
          | none => exact absurd (decide_eq_true hsame) (List.find?_eq_none.mp hfind held hheld)
          | some existing => exact ⟨_, rfl⟩
        · have hinsert : db.insert .tuningContexts row =
              .ok (db.append .tuningContexts row) := by
            refine Database.insert_eq_ok.mpr ⟨⟨hfull, nofun⟩,
              fun key hkey entry hentry hsame => ?_, rfl⟩
            cases List.mem_singleton.mp hkey
            exact htaken ⟨entry, hentry, hsame⟩
          simp only [hinsert]
          exact ⟨_, rfl⟩
      obtain ⟨⟨stored, new, copied⟩, hstep⟩ := hstep
      rw [mergeContexts]
      simp only [hstep]
      exact ih hrows hrest

end Contexts

/-! ## The journal -/

section Journal

variable {faults : Faults} {sessions : IdMap} {copy : Int → Int}

/-- A row under another session. -/
def JournalRow.moved (copy : Int → Int) (row : JournalRow) : JournalRow :=
  { row with sessionId := copy row.sessionId }

theorem Database.insertJournal_eq_ok {db inserted : Database} {row : JournalRow} :
    db.insertJournal row = .ok inserted ↔
      row.key ∉ db.journal.map JournalRow.key ∧ db.HasId .tunerSessions row.sessionId ∧
        inserted = { db with journal := db.journal ++ [row] } := by
  unfold insertJournal
  by_cases htaken : row.key ∈ db.journal.map JournalRow.key
  · rw [if_pos htaken]
    exact ⟨nofun, fun h => absurd htaken h.1⟩
  · rw [if_neg htaken]
    by_cases hid : db.HasId .tunerSessions row.sessionId
    · rw [if_neg (not_not.mpr hid)]
      constructor
      · rintro ⟨⟩
        exact ⟨htaken, hid, rfl⟩
      · rintro ⟨-, -, rfl⟩
        rfl
    · rw [if_pos hid]
      exact ⟨nofun, fun h => absurd h.2.1 hid⟩

/-- A complete pass moves every journal row behind the old ones. -/
theorem mergeJournal_merged {rows : List JournalRow} : ∀ {db merged : Database},
    (∀ row ∈ rows, sessions row.sessionId = some (copy row.sessionId)) →
    mergeJournal faults sessions rows db = .ok merged →
    merged.tables = db.tables ∧ merged.banks = db.banks ∧
      merged.journal = db.journal ++ rows.map (JournalRow.moved copy) := by
  induction rows with
  | nil =>
      intro db merged _ hrun
      cases hrun
      exact ⟨rfl, rfl, by simp⟩
  | cons row rest ih =>
      intro db merged hmap hrun
      obtain ⟨hrow, hrest⟩ := List.forall_mem_cons.mp hmap
      rw [mergeJournal, hrow] at hrun
      by_cases hfault : faults (.insertJournal row.key) = true
      · simp [hfault] at hrun
      cases hinsert : db.insertJournal { row with sessionId := copy row.sessionId } with
      | error error => simp [hfault, hinsert] at hrun
      | ok inserted =>
          simp only [hfault, Bool.false_eq_true, if_false, hinsert] at hrun
          obtain ⟨htables, hbanks, hjournal⟩ := ih hrest hrun
          obtain ⟨-, -, rfl⟩ := Database.insertJournal_eq_ok.mp hinsert
          refine ⟨htables, hbanks, ?_⟩
          rw [hjournal, List.append_assoc]
          rfl

theorem mergeJournal_complete {rows : List JournalRow}
    (hfaults : ∀ statement, faults statement = false) : ∀ {db : Database},
    (∀ row ∈ rows, sessions row.sessionId = some (copy row.sessionId)) →
    (∀ row ∈ rows, db.HasId .tunerSessions (copy row.sessionId)) →
    ((db.journal ++ rows.map (JournalRow.moved copy)).map JournalRow.key).Nodup →
    ∃ merged, mergeJournal faults sessions rows db = .ok merged := by
  induction rows with
  | nil => exact fun _ _ _ => ⟨_, rfl⟩
  | cons row rest ih =>
      intro db hmap hids hnodup
      obtain ⟨hrow, hrest⟩ := List.forall_mem_cons.mp hmap
      obtain ⟨hid, hidRest⟩ := List.forall_mem_cons.mp hids
      rw [List.map_cons, List.append_cons] at hnodup
      have hfresh : (row.moved copy).key ∉ db.journal.map JournalRow.key := by
        rw [List.map_append, List.map_append] at hnodup
        have hpair := List.nodup_append.mp (List.nodup_append.mp hnodup).1
        intro hmem
        exact hpair.2.2 _ hmem _ (List.mem_singleton.mpr rfl) rfl
      rw [mergeJournal, hrow]
      have hinsert : db.insertJournal { row with sessionId := copy row.sessionId } =
          .ok { db with journal := db.journal ++ [row.moved copy] } :=
        Database.insertJournal_eq_ok.mpr ⟨hfresh, hid, rfl⟩
      simp only [hfaults, Bool.false_eq_true, if_false, hinsert]
      exact ih hrest hidRest hnodup

end Journal

/-! ## The banks -/

section Banks

variable {faults : Faults} {contexts : IdMap} {copy : Int → Int}

/-- A bank under another context. -/
def BankRow.moved (copy : Int → Int) (bank : BankRow) : BankRow :=
  { bank with contextId := copy bank.contextId }

/-- The clean time banked under a key. -/
def bankSeconds (banks : List BankRow) (key : Int × Int × String × Int) : ℚ :=
  ((banks.filter fun bank => bank.key = key).map BankRow.cleanSeconds).sum

@[simp] theorem BankRow.key_grow (bank excluded : BankRow) :
    (bank.grow excluded).key = bank.key := rfl

theorem bankSeconds_cons (bank : BankRow) (banks : List BankRow)
    (key : Int × Int × String × Int) :
    bankSeconds (bank :: banks) key =
      (if bank.key = key then bank.cleanSeconds else 0) + bankSeconds banks key := by
  unfold bankSeconds
  by_cases hkey : bank.key = key
  · simp [hkey]
  · simp [hkey]

theorem bankSeconds_append (banks others : List BankRow) (key : Int × Int × String × Int) :
    bankSeconds (banks ++ others) key = bankSeconds banks key + bankSeconds others key := by
  simp [bankSeconds]

@[simp] theorem bankSeconds_nil (key : Int × Int × String × Int) : bankSeconds [] key = 0 := rfl

/-- The banks after one of them was added to. -/
def growBanks (banks : List BankRow) (bank : BankRow) : List BankRow :=
  banks.map fun held => if held.key = bank.key then held.grow bank else held

theorem keys_growBanks (banks : List BankRow) (bank : BankRow) :
    (growBanks banks bank).map BankRow.key = banks.map BankRow.key := by
  rw [growBanks, List.map_map]
  refine List.map_congr_left fun held _ => ?_
  rw [Function.comp_apply]
  split_ifs <;> rfl

/-- Growing a bank that is there once adds its time once. -/
theorem bankSeconds_growBanks {banks : List BankRow} {bank : BankRow}
    (hnodup : (banks.map BankRow.key).Nodup) (hmem : bank.key ∈ banks.map BankRow.key)
    (key : Int × Int × String × Int) :
    bankSeconds (growBanks banks bank) key =
      bankSeconds banks key + if bank.key = key then bank.cleanSeconds else 0 := by
  induction banks with
  | nil => simp at hmem
  | cons held rest ih =>
      obtain ⟨hfresh, hrest⟩ := List.nodup_cons.mp hnodup
      rw [growBanks, List.map_cons, bankSeconds_cons, bankSeconds_cons]
      by_cases hheld : held.key = bank.key
      · -- the bank is this one, and none of the others
        have hothers : growBanks rest bank = rest := by
          rw [growBanks]
          conv_rhs => rw [← List.map_id rest]
          refine List.map_congr_left fun other hother => if_neg fun hsame => ?_
          exact hfresh (List.mem_map.mpr ⟨other, hother, hsame.trans hheld.symm⟩)
        have hrestSeconds : bankSeconds (rest.map fun other =>
            if other.key = bank.key then other.grow bank else other) key =
              bankSeconds rest key := congrArg (bankSeconds · key) hothers
        rw [if_pos hheld, hrestSeconds, BankRow.key_grow, hheld]
        by_cases hkey : bank.key = key
        · simp only [if_pos hkey]
          show held.cleanSeconds + bank.cleanSeconds + bankSeconds rest key =
            held.cleanSeconds + bankSeconds rest key + bank.cleanSeconds
          ring
        · simp only [if_neg hkey]
          ring
      · have hin : bank.key ∈ rest.map BankRow.key :=
          (List.mem_cons.mp hmem).resolve_left fun h => hheld h.symm
        have hgrown := ih hrest hin
        rw [growBanks] at hgrown
        rw [if_neg hheld, hgrown]
        ring

/-- What storing banks one by one adds to those that are there. -/
structure BanksMerged (moved : List BankRow) (db merged : Database) : Prop where
  tables : merged.tables = db.tables
  journal : merged.journal = db.journal
  distinct : (db.banks.map BankRow.key).Nodup → (merged.banks.map BankRow.key).Nodup
  keys : ∀ key, key ∈ merged.banks.map BankRow.key ↔
    key ∈ db.banks.map BankRow.key ∨ key ∈ moved.map BankRow.key
  /-- A bank whose key is not shared stays as it is. -/
  kept : ∀ bank ∈ db.banks, bank.key ∉ moved.map BankRow.key → bank ∈ merged.banks
  seconds : (db.banks.map BankRow.key).Nodup → ∀ key,
    bankSeconds merged.banks key = bankSeconds db.banks key + bankSeconds moved key

/-- One stored bank. -/
theorem upsertBank_merged {db stored : Database} {bank : BankRow}
    (hok : db.upsertBank bank = .ok stored) : BanksMerged [bank] db stored := by
  unfold Database.upsertBank at hok
  by_cases horphan : ¬ db.HasId .tuningContexts bank.contextId
  · simp [horphan] at hok
  rw [if_neg horphan] at hok
  have hsingle : ∀ key, bankSeconds [bank] key =
      if bank.key = key then bank.cleanSeconds else 0 := by
    intro key
    rw [bankSeconds_cons, bankSeconds_nil, add_zero]
  -- A bank under a known key grows by the seconds; any other is added as it is.
  by_cases hmem : bank.key ∈ db.banks.map BankRow.key
  · rw [if_pos hmem] at hok
    cases hok
    have hkeys := keys_growBanks db.banks bank
    refine ⟨rfl, rfl, fun hnodup => ?_, fun key => ?_, fun held hheld hnot => ?_,
      fun hnodup key => ?_⟩
    · show ((growBanks db.banks bank).map BankRow.key).Nodup
      rwa [hkeys]
    · show key ∈ (growBanks db.banks bank).map BankRow.key ↔ _
      rw [hkeys]
      refine ⟨.inl, fun hkey => hkey.elim id fun hsingleton => ?_⟩
      rw [List.mem_singleton.mp hsingleton]
      exact hmem
    · refine List.mem_map.mpr ⟨held, hheld, if_neg fun hsame => hnot ?_⟩
      exact List.mem_singleton.mpr hsame
    · rw [hsingle]
      exact bankSeconds_growBanks hnodup hmem key
  · rw [if_neg hmem] at hok
    cases hok
    refine ⟨rfl, rfl, fun hnodup => ?_, fun key => ?_, fun held hheld _ => ?_, fun _ key => ?_⟩
    · rw [List.map_append]
      refine List.nodup_append.mpr ⟨hnodup, List.nodup_singleton _, ?_⟩
      rintro key hkey other hother rfl
      rw [List.mem_singleton.mp hother] at hkey
      exact hmem hkey
    · simp
    · exact List.mem_append_left _ hheld
    · exact bankSeconds_append _ _ key

/-- A complete pass adds every bank to the one of its key. -/
theorem mergeBanks_merged {rows : List BankRow} : ∀ {db merged : Database},
    (∀ bank ∈ rows, contexts bank.contextId = some (copy bank.contextId)) →
    mergeBanks faults contexts rows db = .ok merged →
    BanksMerged (rows.map (BankRow.moved copy)) db merged := by
  induction rows with
  | nil =>
      intro db merged _ hrun
      cases hrun
      exact ⟨rfl, rfl, id, by simp, fun _ hbank _ => hbank, fun _ key => by
        rw [List.map_nil, bankSeconds_nil, add_zero]⟩
  | cons bank rest ih =>
      intro db merged hmap hrun
      obtain ⟨hbank, hrest⟩ := List.forall_mem_cons.mp hmap
      rw [mergeBanks, hbank] at hrun
      by_cases hfault : faults (.upsertBank bank.key) = true
      · simp [hfault] at hrun
      cases hstep : db.upsertBank { bank with contextId := copy bank.contextId } with
      | error error => simp [hfault, hstep] at hrun
      | ok stored =>
          simp only [hfault, Bool.false_eq_true, if_false, hstep] at hrun
          have hfirst : BanksMerged [bank.moved copy] db stored := upsertBank_merged hstep
          have hothers := ih hrest hrun
          refine ⟨hothers.tables.trans hfirst.tables, hothers.journal.trans hfirst.journal,
            fun hnodup => hothers.distinct (hfirst.distinct hnodup), fun key => ?_,
            fun held hheld hnot => ?_, fun hnodup key => ?_⟩
          · rw [hothers.keys, hfirst.keys, List.map_cons, List.map_cons, List.mem_cons, or_assoc]
            simp
          · rw [List.map_cons, List.map_cons, List.mem_cons, not_or] at hnot
            refine hothers.kept held (hfirst.kept held hheld ?_) hnot.2
            simpa using hnot.1
          · rw [hothers.seconds (hfirst.distinct hnodup), hfirst.seconds hnodup, List.map_cons,
              bankSeconds_cons, bankSeconds_cons, bankSeconds_nil]
            ring

theorem mergeBanks_complete {rows : List BankRow}
    (hfaults : ∀ statement, faults statement = false) : ∀ {db : Database},
    (∀ bank ∈ rows, contexts bank.contextId = some (copy bank.contextId)) →
    (∀ bank ∈ rows, db.HasId .tuningContexts (copy bank.contextId)) →
    ∃ merged, mergeBanks faults contexts rows db = .ok merged := by
  induction rows with
  | nil => exact fun _ _ => ⟨_, rfl⟩
  | cons bank rest ih =>
      intro db hmap hids
      obtain ⟨hbank, hrest⟩ := List.forall_mem_cons.mp hmap
      obtain ⟨hid, hidRest⟩ := List.forall_mem_cons.mp hids
      have hstored : ∃ stored, db.upsertBank (bank.moved copy) = .ok stored := by
        have hparent : db.HasId .tuningContexts (bank.moved copy).contextId := hid
        unfold Database.upsertBank
        rw [if_neg (not_not.mpr hparent)]
        split_ifs <;> exact ⟨_, rfl⟩
      obtain ⟨stored, hstored⟩ := hstored
      have hsame : db.upsertBank { bank with contextId := copy bank.contextId } = .ok stored :=
        hstored
      rw [mergeBanks, hbank]
      simp only [hfaults, Bool.false_eq_true, if_false, hsame]
      refine ih hrest fun other hother => ?_
      obtain ⟨entry, hentry, heq⟩ := hidRest other hother
      exact ⟨entry, by rwa [(upsertBank_merged hstored).tables], heq⟩

end Banks

end History
end CoreCycler
