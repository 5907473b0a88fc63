import CoreCycler.History.MergePasses
import Mathlib.Algebra.BigOperators.Group.List.Basic

/-!
# A merge loses nothing

What a merge of two valid databases leaves in the destination: its own rows, one copy of every
source row with its references on the copies of its parents, one context for each key, and
the banks added up.
-/

namespace CoreCycler
namespace History

open Library Library.Tables

/-! ## The copy of a row -/

section Copies

/-- The new ID of each row of the source, table by table. -/
abbrev Copies := TableName → Int → Int

/-- A reference on the copy of its parent. -/
def copyReference (copy : Int → Int) : Value → Value
  | .integer id => .integer (copy id)
  | value => value

/-- A row with its references on the copies of its parents, and nothing else changed. -/
def copyOf (copy : Copies) (table : TableName) (row : Row) : Row := fun column =>
  match (ddl table).references.lookup column with
  | none => row column
  | some parent => copyReference (copy parent) (row column)

variable {src db dest : Database} {copy : Copies} {table : TableName} {row : Row}
  {maps : TableName → IdMap}

theorem copyReference_eq_null {copy : Int → Int} {value : Value} :
    copyReference copy value = .null ↔ value = .null := by
  cases value <;> simp [copyReference]

/-- A copy has a value where the row has one. -/
theorem copyOf_eq_null {column : String} :
    copyOf copy table row column = .null ↔ row column = .null := by
  unfold copyOf
  cases (ddl table).references.lookup column with
  | none => rfl
  | some parent => exact copyReference_eq_null

/-- A column refers to one table. -/
theorem lookup_references (table : TableName) : ∀ reference ∈ (ddl table).references,
    (ddl table).references.lookup reference.1 = some reference.2 := by
  cases table <;> decide +kernel

theorem mem_references {column : String} {parent : TableName}
    (hlookup : (ddl table).references.lookup column = some parent) :
    (column, parent) ∈ (ddl table).references := by
  obtain ⟨before, behind, hsplit, -⟩ := List.lookup_eq_some_iff.mp hlookup
  rw [hsplit]
  simp

theorem copyOf_reference {reference : String × TableName}
    (hmem : reference ∈ (ddl table).references) :
    copyOf copy table row reference.1 = copyReference (copy reference.2) (row reference.1) := by
  simp only [copyOf, lookup_references table reference hmem]

/-- A copy depends on the copies of the parents only. -/
theorem copyOf_congr {other : Copies}
    (hsame : ∀ reference ∈ (ddl table).references, copy reference.2 = other reference.2) :
    copyOf copy table row = copyOf other table row := by
  funext column
  unfold copyOf
  cases hlookup : (ddl table).references.lookup column with
  | none => rfl
  | some parent =>
      simp only
      rw [hsame (column, parent) (mem_references hlookup)]

/-- The parents that the rows of a table refer to are copied: the map knows the copies, and
they are stored. -/
structure Known (maps : TableName → IdMap) (copy : Copies) (src db : Database)
    (table : TableName) : Prop where
  mapped : ∀ reference ∈ (ddl table).references, ∀ id, src.HasId reference.2 id →
    maps reference.2 id = some (copy reference.2 id)
  stored : ∀ reference ∈ (ddl table).references, ∀ id, src.HasId reference.2 id →
    db.HasId reference.2 (copy reference.2 id)

/-- The copy of a row that meets the constraints meets them. -/
theorem fits_copyOf (hfits : src.Fits table row)
    (hstored : ∀ reference ∈ (ddl table).references, ∀ id, src.HasId reference.2 id →
      db.HasId reference.2 (copy reference.2 id)) :
    db.Fits table (copyOf copy table row) := by
  refine ⟨fun column hcolumn hnot hnull => ?_, fun reference hmem => ?_⟩
  · exact hfits.notNull column hcolumn hnot (copyOf_eq_null.mp hnull)
  · rw [copyOf_reference hmem]
    rcases Database.resolves_iff.mp (hfits.resolves reference hmem) with hnull | ⟨id, hid, hhas⟩
    · rw [hnull]
      trivial
    · rw [hid]
      exact hstored reference hmem id hhas

theorem mapReference_eq {map : IdMap} {copy : Int → Int} {parent : TableName} {value : Value}
    (hmap : ∀ id, src.HasId parent id → map id = some (copy id))
    (hvalue : src.Resolves parent value) : mapReference map value = copyReference copy value := by
  rcases Database.resolves_iff.mp hvalue with rfl | ⟨id, rfl, hhas⟩
  · rfl
  · simp only [mapReference, hmap id hhas, copyReference]

/-- A remapped row is the row's copy. -/
theorem project_remapped (hknown : Known maps copy src db table) (hfits : src.Fits table row)
    (hcolumns : ∀ column ∉ (ddl table).columns, row column = .null) :
    (project table fun column =>
      match (ddl table).references.lookup column with
      | none => row column
      | some parent => mapReference (maps parent) (row column)) = copyOf copy table row := by
  have hcopied : project table (copyOf copy table row) = copyOf copy table row :=
    project_eq fun column hnot => copyOf_eq_null.mpr (hcolumns column hnot)
  rw [← hcopied]
  congr 1
  funext column
  unfold copyOf
  cases hlookup : (ddl table).references.lookup column with
  | none => rfl
  | some parent =>
      have hmem := mem_references hlookup
      exact mapReference_eq (hknown.mapped _ hmem) (hfits.resolves _ hmem)

/-- A run or session becomes its copy. -/
theorem parentRow_eq (hreferences : (ddl table).references = [("context_id", .tuningContexts)])
    (hknown : Known maps copy src db table) (hfits : src.Fits table row)
    (hcolumns : ∀ column ∉ (ddl table).columns, row column = .null) :
    parentRow (maps .tuningContexts) table row = copyOf copy table row := by
  rw [← project_remapped hknown hfits hcolumns, parentRow, hreferences]
  congr 1
  funext column
  by_cases hcolumn : column = "context_id"
  · subst hcolumn
    rfl
  · have hnot : (column == "context_id") = false := by simpa using hcolumn
    simp only [if_neg hcolumn, List.lookup_cons, List.lookup_nil, hnot]

/-- No child is left behind: each becomes its copy. -/
theorem childRow_eq (hknown : Known maps copy src db table) (hfits : src.Fits table row)
    (hcolumns : ∀ column ∉ (ddl table).columns, row column = .null) :
    childRow maps table (ddl table).references row = some (copyOf copy table row) := by
  have hnone : ∀ column, orphaned maps (ddl table).references row column = false := by
    intro column
    unfold orphaned
    cases hlookup : (ddl table).references.lookup column with
    | none => rfl
    | some parent =>
        have hmem := mem_references hlookup
        have hvalue := mapReference_eq (hknown.mapped _ hmem) (hfits.resolves _ hmem)
        simp only [hvalue, copyReference_eq_null, ne_eq, not_and_self, decide_false]
  rw [childRow, if_neg fun ⟨column, _, horphaned, _⟩ => absurd horphaned (by simp [hnone])]
  exact congrArg some (project_remapped hknown hfits hcolumns)

end Copies

/-! ## New IDs -/

section Fresh

variable {src db copied : Database} {table : TableName} {rows : List (Int × Row)}
  {copy : Row → Row} {map : IdMap}

theorem Database.hasId_congr {other : Database} (htable : other.tables table = db.tables table)
    {id : Int} : other.HasId table id ↔ db.HasId table id := by
  unfold HasId
  rw [htable]

/-- New IDs lie behind those handed out before, and no two rows share one. -/
structure Fresh (copy : Int → Int) (src db : Database) (table : TableName) : Prop where
  behind : ∀ id, src.HasId table id → ∀ old, db.HasId table old → old < copy id
  injective : ∀ id, src.HasId table id → ∀ other, src.HasId table other →
    copy id = copy other → id = other

theorem Copied.hasId (hcopied : Copied table copy rows db copied map) {other : TableName}
    {id : Int} (hid : db.HasId other id) : copied.HasId other id := by
  by_cases hother : other = table
  · subst hother
    obtain ⟨entry, hentry, heq⟩ := hid
    refine ⟨entry, ?_, heq⟩
    rw [hcopied.stored]
    exact List.mem_append_left _ hentry
  · exact (Database.hasId_congr (hcopied.others other hother)).mpr hid

/-- The map knows the copy of every row. -/
theorem Copied.map_eq (hcopied : Copied table copy (src.tables table).rows db copied map)
    {id : Int} (hid : src.HasId table id) : map id = some ((map id).getD 0) := by
  obtain ⟨entry, hentry, rfl⟩ := hid
  obtain ⟨new, hnew⟩ := Option.isSome_iff_exists.mp (hcopied.mapped entry hentry)
  rw [hnew, Option.getD_some]

theorem Copied.hasCopy (hcopied : Copied table copy (src.tables table).rows db copied map)
    {id : Int} (hid : src.HasId table id) : copied.HasId table ((map id).getD 0) := by
  obtain ⟨entry, hentry, rfl⟩ := hid
  refine ⟨((map entry.1).getD 0, copy entry.2), ?_, rfl⟩
  rw [hcopied.stored]
  exact List.mem_append_right _ (List.mem_map.mpr ⟨entry, hentry, rfl⟩)

theorem fresh_of_stored {copies : Int → Int}
    (hstored : (copied.tables table).rows = (db.tables table).rows ++
      (src.tables table).rows.map fun entry => (copies entry.1, copy entry.2)) :
    Fresh copies src db table := by
  have hascending := (copied.tables table).ascending
  rw [hstored] at hascending
  obtain ⟨-, hcopies, hbehind⟩ := List.pairwise_append.mp hascending
  refine ⟨?_, ?_⟩
  · rintro id ⟨entry, hentry, rfl⟩ old ⟨held, hheld, rfl⟩
    exact hbehind held hheld _ (List.mem_map.mpr ⟨entry, hentry, rfl⟩)
  · rintro id ⟨entry, hentry, rfl⟩ other ⟨entry', hentry', rfl⟩ hsame
    have hnodup : ((src.tables table).rows.map fun entry => copies entry.1).Nodup :=
      List.pairwise_map.mpr ((List.pairwise_map.mp hcopies).imp fun hlt => Int.ne_of_lt hlt)
    exact congrArg Prod.fst (List.inj_on_of_nodup_map hnodup hentry hentry' hsame)

end Fresh

section ContextIds

variable {src db merged : Database} {map : IdMap}

theorem ContextsMerged.hasId {rows : List (Int × Row)}
    (hmerged : ContextsMerged rows db merged map) {other : TableName} {id : Int}
    (hid : db.HasId other id) : merged.HasId other id := by
  by_cases hother : other = .tuningContexts
  · subst hother
    obtain ⟨entry, hentry, heq⟩ := hid
    obtain ⟨added, -, hstored⟩ := hmerged.stored
    refine ⟨entry, ?_, heq⟩
    rw [hstored]
    exact List.mem_append_left _ hentry
  · exact (Database.hasId_congr (hmerged.others other hother)).mpr hid

theorem ContextsMerged.map_eq
    (hmerged : ContextsMerged (src.tables .tuningContexts).rows db merged map) {id : Int}
    (hid : src.HasId .tuningContexts id) : map id = some ((map id).getD 0) := by
  obtain ⟨entry, hentry, rfl⟩ := hid
  obtain ⟨held, -, hmap, -⟩ := hmerged.found entry hentry
  rw [hmap, Option.getD_some]

theorem ContextsMerged.hasCopy
    (hmerged : ContextsMerged (src.tables .tuningContexts).rows db merged map) {id : Int}
    (hid : src.HasId .tuningContexts id) : merged.HasId .tuningContexts ((map id).getD 0) := by
  obtain ⟨entry, hentry, rfl⟩ := hid
  obtain ⟨held, hheld, hmap, -⟩ := hmerged.found entry hentry
  rw [hmap, Option.getD_some]
  exact ⟨held, hheld, rfl⟩

/-- Rows of a table that agree on a unique key are one row. -/
theorem eq_of_sameKey {table : TableName} {rows : List (Int × Row)} {key : List String}
    (hdistinct : Distinct table (rows.map Prod.snd)) (hkey : key ∈ (ddl table).unique)
    {entry other : Int × Row} (hentry : entry ∈ rows) (hother : other ∈ rows)
    (hsame : SameKey key entry.2 other.2) : entry = other := by
  by_contra hne
  have hsymm : Std.Symm fun first second : Int × Row => ¬ SameKey key first.2 second.2 :=
    ⟨fun _ _ hnot hback => hnot fun column hcolumn => (hback column hcolumn).symm⟩
  exact (List.pairwise_map.mp (hdistinct key hkey)).forall hentry hother hne hsame

/-- Contexts are told apart in the destination as in the source. -/
theorem ContextsMerged.injective
    (hmerged : ContextsMerged (src.tables .tuningContexts).rows db merged map)
    (hsrc : src.Valid) {id other : Int} (hid : src.HasId .tuningContexts id)
    (hother : src.HasId .tuningContexts other)
    (hsame : (map id).getD 0 = (map other).getD 0) : id = other := by
  obtain ⟨entry, hentry, rfl⟩ := hid
  obtain ⟨entry', hentry', rfl⟩ := hother
  obtain ⟨held, hheld, hmap, hkey⟩ := hmerged.found entry hentry
  obtain ⟨held', hheld', hmap', hkey'⟩ := hmerged.found entry' hentry'
  rw [hmap, hmap', Option.getD_some, Option.getD_some] at hsame
  obtain ⟨new, row⟩ := held
  obtain ⟨new', row'⟩ := held'
  cases (show new = new' from hsame)
  cases (merged.tables .tuningContexts).id_unique hheld hheld'
  refine congrArg Prod.fst (eq_of_sameKey (hsrc.distinct .tuningContexts)
    (List.mem_singleton.mpr rfl) hentry hentry' fun column hcolumn => ?_)
  exact (hkey column hcolumn).symm.trans (hkey' column hcolumn)

end ContextIds

/-! ## Runs, sessions and children -/

section Stages

variable {faults : Faults} {src dest db : Database} {copy : Copies} {table : TableName}
  {maps : TableName → IdMap}

theorem copyParent_copied {copied : Database} {ids : IdMap}
    (hreferences : (ddl table).references = [("context_id", .tuningContexts)])
    (hknown : Known maps copy src db table) (hsrc : src.Valid)
    (hrun : copyParent faults (maps .tuningContexts) table src db = .ok (copied, ids)) :
    Copied table (copyOf copy table) (src.tables table).rows db copied ids := by
  unfold copyParent at hrun
  by_cases hfault : faults (.selectRows table) = true
  · simp [hfault] at hrun
  rw [if_neg hfault] at hrun
  refine (copyRows_copied (src.tables table).ids_nodup (fun entry hentry => ?_) hrun).1
  exact congrArg some (parentRow_eq hreferences hknown (hsrc.fits table entry hentry)
    (hsrc.columns table entry hentry))

/-- Rows of a table without a unique key are distinct. -/
theorem distinct_of_no_key (hunique : (ddl table).unique = []) (rows : List Row) :
    Distinct table rows := by
  rw [Distinct, hunique]
  intro key hkey
  exact absurd hkey List.not_mem_nil

theorem copyParent_complete (hfaults : ∀ statement, faults statement = false)
    (hreferences : (ddl table).references = [("context_id", .tuningContexts)])
    (hknown : Known maps copy src db table) (hsrc : src.Valid)
    (hunique : (ddl table).unique = []) :
    ∃ copied ids,
      copyParent faults (maps .tuningContexts) table src db = .ok (copied, ids) := by
  unfold copyParent
  rw [if_neg (by simp [hfaults])]
  exact copyRows_complete (fun id => hfaults _)
    (fun entry hentry => congrArg some (parentRow_eq hreferences hknown
      (hsrc.fits table entry hentry) (hsrc.columns table entry hentry)))
    (fun entry hentry => fits_copyOf (hsrc.fits table entry hentry) hknown.stored)
    (distinct_of_no_key hunique _)

/-- A pass over the children appends the copies to each of their tables. -/
structure ChildrenCopied (copy : Copies) (src : Database) (tables : List TableName)
    (db copied : Database) : Prop where
  stored : ∀ table ∈ tables, ∃ ids : Int → Int, (copied.tables table).rows =
    (db.tables table).rows ++
      (src.tables table).rows.map fun entry => (ids entry.1, copyOf copy table entry.2)
  others : ∀ table ∉ tables, copied.tables table = db.tables table
  journal : copied.journal = db.journal
  banks : copied.banks = db.banks

theorem mergeChildren_copied {children : List (TableName × List (String × TableName))} :
    ∀ {db copied : Database}, (children.map Prod.fst).Nodup →
      (∀ child ∈ children, ∀ entry ∈ (src.tables child.1).rows,
        childRow maps child.1 child.2 entry.2 = some (copyOf copy child.1 entry.2)) →
      mergeChildren faults maps src children db = .ok copied →
      ChildrenCopied copy src (children.map Prod.fst) db copied := by
  induction children with
  | nil =>
      intro db copied _ _ hrun
      cases hrun
      exact ⟨nofun, fun _ _ => rfl, rfl, rfl⟩
  | cons child rest ih =>
      obtain ⟨table, remaps⟩ := child
      intro db copied hnodup hrows hrun
      obtain ⟨hfresh, hrest⟩ := List.nodup_cons.mp hnodup
      obtain ⟨hchild, hothers⟩ := List.forall_mem_cons.mp hrows
      rw [mergeChildren] at hrun
      by_cases hfault : faults (.selectRows table) = true
      · simp [hfault] at hrun
      rw [if_neg hfault] at hrun
      cases hcopy : copyRows faults table (childRow maps table remaps) (src.tables table).rows
          db IdMap.empty with
      | error error => simp [hcopy] at hrun
      | ok result =>
          obtain ⟨stored, ids⟩ := result
          simp only [hcopy] at hrun
          have hfirst := (copyRows_copied (src.tables table).ids_nodup hchild hcopy).1
          have hbehind := ih hrest hothers hrun
          refine ⟨?_, fun other hother => ?_, hbehind.journal.trans hfirst.journal,
            hbehind.banks.trans hfirst.banks⟩
          · refine List.forall_mem_cons.mpr ⟨⟨fun id => (ids id).getD 0, ?_⟩,
              fun other hother => ?_⟩
            · rw [hbehind.others table hfresh, hfirst.stored]
            · obtain ⟨ids', hstored⟩ := hbehind.stored other hother
              have hne : other ≠ table := fun heq => hfresh (heq ▸ hother)
              exact ⟨ids', by rw [hstored, hfirst.others other hne]⟩
          · obtain ⟨hne, hnot⟩ := not_or.mp (List.mem_cons.not.mp hother)
            rw [hbehind.others other hnot, hfirst.others other hne]

theorem mergeChildren_complete {children : List (TableName × List (String × TableName))}
    (hfaults : ∀ statement, faults statement = false) :
    ∀ {db : Database}, (children.map Prod.fst).Nodup →
      (∀ child ∈ children, ∀ entry ∈ (src.tables child.1).rows,
        childRow maps child.1 child.2 entry.2 = some (copyOf copy child.1 entry.2)) →
      (∀ child ∈ children, ∀ entry ∈ (src.tables child.1).rows,
        db.Fits child.1 (copyOf copy child.1 entry.2)) →
      (∀ child ∈ children, Distinct child.1 ((db.tables child.1).rows.map Prod.snd ++
        (src.tables child.1).rows.map fun entry => copyOf copy child.1 entry.2)) →
      ∃ copied, mergeChildren faults maps src children db = .ok copied := by
  induction children with
  | nil => exact fun _ _ _ _ => ⟨_, rfl⟩
  | cons child rest ih =>
      obtain ⟨table, remaps⟩ := child
      intro db hnodup hrows hfits hdistinct
      obtain ⟨hfresh, hrest⟩ := List.nodup_cons.mp hnodup
      obtain ⟨hchild, hothers⟩ := List.forall_mem_cons.mp hrows
      obtain ⟨hfit, hfitRest⟩ := List.forall_mem_cons.mp hfits
      obtain ⟨hown, hdistinctRest⟩ := List.forall_mem_cons.mp hdistinct
      obtain ⟨stored, ids, hcopy⟩ : ∃ stored ids,
          copyRows faults table (childRow maps table remaps) (src.tables table).rows db
            IdMap.empty = .ok (stored, ids) :=
        copyRows_complete (fun id => hfaults (.insertRow table id)) hchild hfit hown
      have hfirst := (copyRows_copied (src.tables table).ids_nodup hchild hcopy).1
      rw [mergeChildren]
      simp only [hfaults, Bool.false_eq_true, if_false, hcopy]
      refine ih hrest hothers (fun other hother entry hentry => ?_) fun other hother => ?_
      · exact (hfitRest other hother entry hentry).mono fun _ _ => hfirst.hasId
      · have hne : other.1 ≠ table := fun heq =>
          hfresh (heq ▸ List.mem_map.mpr ⟨other, hother, rfl⟩)
        rw [hfirst.others other.1 hne]
        exact hdistinctRest other hother

/-- The copies of a table's rows clash neither with each other nor with the destination's. -/
theorem distinct_copies (htable : table ≠ .tuningContexts) (hdest : dest.Valid)
    (hsrc : src.Valid) (hfresh : Fresh (copy .tunerSessions) src dest .tunerSessions) :
    Distinct table ((dest.tables table).rows.map Prod.snd ++
      (src.tables table).rows.map fun entry => copyOf copy table entry.2) := by
  by_cases hunique : (ddl table).unique = []
  · exact distinct_of_no_key hunique _
  -- only the core states have a key, of their session and core
  obtain rfl : table = .tunerCoreStates := by
    revert htable hunique
    cases table <;> decide
  have hsession : ("session_id", TableName.tunerSessions) ∈ (ddl .tunerCoreStates).references :=
    List.mem_singleton.mpr rfl
  have hid : ∀ {db : Database} {row : Row}, db.Fits .tunerCoreStates row →
      ∃ id, row "session_id" = .integer id ∧ db.HasId .tunerSessions id := by
    intro db row hfits
    refine (Database.resolves_iff.mp (hfits.resolves _ hsession)).resolve_left fun hnull => ?_
    exact hfits.notNull "session_id" (by decide) (by decide) hnull
  have hcopy : ∀ {row : Row} {id : Int}, row "session_id" = .integer id →
      copyOf copy .tunerCoreStates row "session_id" = .integer (copy .tunerSessions id) := by
    intro row id hrow
    rw [copyOf_reference hsession, hrow]
    rfl
  intro key hkey
  cases List.mem_singleton.mp hkey
  refine List.pairwise_append.mpr ⟨hdest.distinct .tunerCoreStates _ hkey, ?_, ?_⟩
  · refine List.pairwise_map.mpr ((List.pairwise_map.mp
      (hsrc.distinct .tunerCoreStates _ hkey)).imp_of_mem fun {e e'} he he' hnot hsame => hnot ?_)
    obtain ⟨id, hrow, hhas⟩ := hid (hsrc.fits _ e he)
    obtain ⟨id', hrow', hhas'⟩ := hid (hsrc.fits _ e' he')
    have hsession := hsame "session_id" (by decide)
    rw [hcopy hrow, hcopy hrow'] at hsession
    have hids := hfresh.injective id hhas id' hhas' (Value.integer.inj hsession)
    have hcore := hsame "core_id" (by decide)
    intro column hcolumn
    rcases List.mem_pair.mp hcolumn with rfl | rfl
    · rw [hrow, hrow', hids]
    · exact hcore
  · intro row hrow new hnew hsame
    obtain ⟨held, hheld, rfl⟩ := List.mem_map.mp hrow
    obtain ⟨entry, hentry, rfl⟩ := List.mem_map.mp hnew
    obtain ⟨old, hold, hhas⟩ := hid (hdest.fits _ held hheld)
    obtain ⟨id, hid, hhas'⟩ := hid (hsrc.fits _ entry hentry)
    have hsession := hsame "session_id" (by decide)
    rw [hold, hcopy hid] at hsession
    exact absurd (Value.integer.inj hsession) (Int.ne_of_lt (hfresh.behind id hhas' old hhas))

end Stages

/-! ## The whole merge -/

section Whole

variable {faults : Faults} {dest src merged : Database}

/-- What a merge leaves: every destination row, and a copy of every source row. -/
structure Merged (copy : Copies) (dest src merged : Database) : Prop where
  rows : ∀ table ≠ TableName.tuningContexts, (merged.tables table).rows =
    (dest.tables table).rows ++
      (src.tables table).rows.map fun entry => (copy table entry.1, copyOf copy table entry.2)
  /-- Contexts are only added, each a context of the source. -/
  contexts : ∃ added : List (Int × Row), added.Sublist (src.tables .tuningContexts).rows ∧
    (merged.tables .tuningContexts).rows = (dest.tables .tuningContexts).rows ++
      added.map fun entry => (copy .tuningContexts entry.1, entry.2)
  /-- The copy of a context has its key. -/
  contextFound : ∀ entry ∈ (src.tables .tuningContexts).rows,
    ∃ held ∈ (merged.tables .tuningContexts).rows,
      held.1 = copy .tuningContexts entry.1 ∧ SameKey contextKey held.2 entry.2
  /-- No two contexts share a key. -/
  contextsDistinct : Distinct .tuningContexts ((merged.tables .tuningContexts).rows.map Prod.snd)
  journal : ∃ moved : List JournalRow, merged.journal = dest.journal ++ moved ∧
    moved.Perm (src.journal.map (JournalRow.moved (copy .tunerSessions)))
  /-- The source's banks keep apart in the destination. -/
  bankKeysMoved :
    ((src.banks.map (BankRow.moved (copy .tuningContexts))).map BankRow.key).Nodup
  bankKeys : ∀ key, key ∈ merged.banks.map BankRow.key ↔ key ∈ dest.banks.map BankRow.key ∨
    key ∈ (src.banks.map (BankRow.moved (copy .tuningContexts))).map BankRow.key
  banksDistinct : (merged.banks.map BankRow.key).Nodup
  /-- Each bank is the sum of the two sides. -/
  bankSeconds : ∀ key, bankSeconds merged.banks key = bankSeconds dest.banks key +
    bankSeconds (src.banks.map (BankRow.moved (copy .tuningContexts))) key
  /-- A bank whose key is not shared stays as it is. -/
  banksKept : ∀ bank ∈ dest.banks,
    bank.key ∉ (src.banks.map (BankRow.moved (copy .tuningContexts))).map BankRow.key →
      bank ∈ merged.banks

variable {copy : Copies}

theorem Merged.hasId (hmerged : Merged copy dest src merged) {table : TableName} {id : Int}
    (hid : dest.HasId table id) : merged.HasId table id := by
  obtain ⟨entry, hentry, heq⟩ := hid
  refine ⟨entry, ?_, heq⟩
  by_cases htable : table = .tuningContexts
  · subst htable
    obtain ⟨added, -, hstored⟩ := hmerged.contexts
    rw [hstored]
    exact List.mem_append_left _ hentry
  · rw [hmerged.rows table htable]
    exact List.mem_append_left _ hentry

theorem Merged.hasCopy (hmerged : Merged copy dest src merged) {table : TableName} {id : Int}
    (hid : src.HasId table id) : merged.HasId table (copy table id) := by
  obtain ⟨entry, hentry, rfl⟩ := hid
  by_cases htable : table = .tuningContexts
  · subst htable
    obtain ⟨held, hheld, hsame, -⟩ := hmerged.contextFound entry hentry
    exact ⟨held, hheld, hsame⟩
  · refine ⟨(copy table entry.1, copyOf copy table entry.2), ?_, rfl⟩
    rw [hmerged.rows table htable]
    exact List.mem_append_right _ (List.mem_map.mpr ⟨entry, hentry, rfl⟩)

/-- Every row is one of the destination or the copy of one of the source. -/
theorem Merged.row_cases (hmerged : Merged copy dest src merged) {table : TableName}
    {entry : Int × Row} (hentry : entry ∈ (merged.tables table).rows) :
    entry ∈ (dest.tables table).rows ∨
      ∃ own ∈ (src.tables table).rows, copyOf copy table own.2 = entry.2 := by
  by_cases htable : table = .tuningContexts
  · subst htable
    obtain ⟨added, hadded, hstored⟩ := hmerged.contexts
    rw [hstored] at hentry
    rcases List.mem_append.mp hentry with hold | hnew
    · exact .inl hold
    · obtain ⟨own, hown, rfl⟩ := List.mem_map.mp hnew
      exact .inr ⟨own, hadded.subset hown, rfl⟩
  · rw [hmerged.rows table htable] at hentry
    rcases List.mem_append.mp hentry with hold | hnew
    · exact .inl hold
    · obtain ⟨own, hown, rfl⟩ := List.mem_map.mp hnew
      exact .inr ⟨own, hown, rfl⟩

/-- Moved journal rows share no key with each other or with the destination's. -/
theorem journalKeys_nodup {move : Int → Int} {rows : List JournalRow} (hdest : dest.Valid)
    (hsrc : src.Valid) (hfresh : Fresh move src dest .tunerSessions)
    (hperm : rows.Perm src.journal) :
    ((dest.journal ++ rows.map (JournalRow.moved move)).map JournalRow.key).Nodup := by
  have hrows : (rows.map JournalRow.key).Nodup :=
    (hperm.map JournalRow.key).nodup_iff.mpr hsrc.journalDistinct
  have hresolve : ∀ row ∈ rows, src.HasId .tunerSessions row.sessionId := fun row hrow =>
    hsrc.journalResolves row (hperm.mem_iff.mp hrow)
  rw [List.map_append]
  refine List.nodup_append.mpr ⟨hdest.journalDistinct, ?_, ?_⟩
  · rw [List.map_map]
    refine List.Nodup.map_on (fun row hrow other hother hsame => ?_) (List.Nodup.of_map _ hrows)
    obtain ⟨hsession, hcore⟩ := Prod.mk.inj hsame
    refine List.inj_on_of_nodup_map hrows hrow hother (Prod.ext ?_ hcore)
    exact hfresh.injective _ (hresolve row hrow) _ (hresolve other hother) hsession
  · intro key hkey other hother heq
    obtain ⟨held, hheld, rfl⟩ := List.mem_map.mp hkey
    rw [List.map_map] at hother
    obtain ⟨row, hrow, rfl⟩ := List.mem_map.mp hother
    have hsession : held.sessionId = move row.sessionId := (Prod.mk.inj heq).1
    have hbehind := hfresh.behind _ (hresolve row hrow) _ (hdest.journalResolves held hheld)
    omega

/-- The merged database meets the schema, with intact references. -/
theorem Merged.valid (hmerged : Merged copy dest src merged) (hdest : dest.Valid)
    (hsrc : src.Valid) : merged.Valid := by
  have hfresh : Fresh (copy .tunerSessions) src dest .tunerSessions :=
    fresh_of_stored (hmerged.rows .tunerSessions (by decide))
  refine ⟨fun table entry hentry => ?_, fun table entry hentry => ?_, fun table => ?_,
    fun row hrow => ?_, ?_, fun bank hbank => ?_, hmerged.banksDistinct⟩
  · rcases hmerged.row_cases hentry with hold | ⟨own, hown, hcopy⟩
    · exact (hdest.fits table entry hold).mono fun _ _ => hmerged.hasId
    · rw [← hcopy]
      exact fits_copyOf (hsrc.fits table own hown) fun _ _ _ => hmerged.hasCopy
  · intro column hcolumn
    rcases hmerged.row_cases hentry with hold | ⟨own, hown, hcopy⟩
    · exact hdest.columns table entry hold column hcolumn
    · rw [← hcopy]
      exact copyOf_eq_null.mpr (hsrc.columns table own hown column hcolumn)
  · by_cases htable : table = .tuningContexts
    · subst htable
      exact hmerged.contextsDistinct
    · rw [hmerged.rows table htable, List.map_append, List.map_map]
      exact distinct_copies htable hdest hsrc hfresh
  · obtain ⟨moved, hjournal, hperm⟩ := hmerged.journal
    rw [hjournal] at hrow
    rcases List.mem_append.mp hrow with hold | hnew
    · exact hmerged.hasId (hdest.journalResolves row hold)
    · obtain ⟨own, hown, rfl⟩ := List.mem_map.mp (hperm.mem_iff.mp hnew)
      exact hmerged.hasCopy (hsrc.journalResolves own hown)
  · obtain ⟨moved, hjournal, hperm⟩ := hmerged.journal
    rw [hjournal]
    refine ((hperm.append_left dest.journal).map JournalRow.key).nodup_iff.mpr ?_
    exact journalKeys_nodup hdest hsrc hfresh (List.Perm.refl _)
  · rcases (hmerged.bankKeys bank.key).mp (List.mem_map.mpr ⟨bank, hbank, rfl⟩) with hold | hnew
    · obtain ⟨held, hheld, hkey⟩ := List.mem_map.mp hold
      rw [← (Prod.mk.inj hkey).1]
      exact hmerged.hasId (hdest.banksResolve held hheld)
    · rw [List.map_map] at hnew
      obtain ⟨own, hown, hkey⟩ := List.mem_map.mp hnew
      rw [← (Prod.mk.inj hkey).1]
      exact hmerged.hasCopy (hsrc.banksResolve own hown)

/-- The states and maps between the passes of a complete merge. -/
structure Passes (faults : Faults) (dest src merged : Database) where
  withContexts : Database
  contexts : IdMap
  count : Nat
  withRuns : Database
  runs : IdMap
  withSessions : Database
  sessions : IdMap
  withChildren : Database
  withJournal : Database
  contextsRun : mergeContexts faults (src.tables .tuningContexts).rows dest IdMap.empty 0 =
    .ok (withContexts, contexts, count)
  runsRun : copyParent faults contexts .runs src withContexts = .ok (withRuns, runs)
  sessionsRun : copyParent faults contexts .tunerSessions src withRuns =
    .ok (withSessions, sessions)
  childrenRun : mergeChildren faults (parentMaps contexts runs sessions) src mergeTables
    withSessions = .ok withChildren
  journalRun : mergeJournal faults sessions (src.journal.insertionSort journalOrder)
    withChildren = .ok withJournal
  banksRun : mergeBanks faults contexts (src.banks.insertionSort bankOrder) withJournal =
    .ok merged

theorem bind_eq_ok {α β : Type} {first : Except SqlError α} {rest : α → Except SqlError β}
    {result : β} (hrun : (first >>= rest) = .ok result) :
    ∃ value, first = .ok value ∧ rest value = .ok result := by
  cases first with
  | error error => cases hrun
  | ok value => exact ⟨value, rfl, hrun⟩

/-- A merge that completes ran all its passes. -/
theorem mergeStatements_ok {counts : MergeCounts}
    (hrun : mergeStatements faults dest src = .ok (merged, counts)) :
    Nonempty (Passes faults dest src merged) := by
  unfold mergeStatements at hrun
  by_cases hbegin : (faults .begin || faults (.selectRows .tuningContexts)) = true
  · rw [if_pos hbegin] at hrun
    cases hrun
  rw [if_neg hbegin] at hrun
  obtain ⟨⟨withContexts, contexts, count⟩, hcontexts, hrun⟩ := bind_eq_ok hrun
  obtain ⟨⟨withRuns, runs⟩, hruns, hrun⟩ := bind_eq_ok hrun
  obtain ⟨⟨withSessions, sessions⟩, hsessions, hrun⟩ := bind_eq_ok hrun
  obtain ⟨withChildren, hchildren, hrun⟩ := bind_eq_ok hrun
  by_cases hselectJournal : faults .selectJournal = true
  · simp only [if_pos hselectJournal] at hrun
    cases hrun
  simp only [if_neg hselectJournal] at hrun
  obtain ⟨withJournal, hjournal, hrun⟩ := bind_eq_ok hrun
  by_cases hselectBanks : faults .selectBanks = true
  · simp only [if_pos hselectBanks] at hrun
    cases hrun
  simp only [if_neg hselectBanks] at hrun
  obtain ⟨withBanks, hbanks, hrun⟩ := bind_eq_ok hrun
  by_cases hcommit : faults .commit = true
  · simp only [if_pos hcommit] at hrun
    cases hrun
  simp only [if_neg hcommit] at hrun
  cases hrun
  exact ⟨{ withContexts, contexts, count, withRuns, runs, withSessions, sessions, withChildren,
           withJournal, contextsRun := hcontexts, runsRun := hruns, sessionsRun := hsessions,
           childrenRun := hchildren, journalRun := hjournal, banksRun := hbanks }⟩

/-- Without a fault the passes are the whole merge. -/
theorem mergeStatements_of_passes (hfaults : ∀ statement, faults statement = false)
    (passes : Passes faults dest src merged) :
    ∃ counts, mergeStatements faults dest src = .ok (merged, counts) := by
  unfold mergeStatements
  simp only [hfaults, Bool.or_self, Bool.false_eq_true, if_false, bind, Except.bind,
    passes.contextsRun, passes.runsRun, passes.sessionsRun, passes.childrenRun,
    passes.journalRun, passes.banksRun]
  exact ⟨_, rfl⟩

/-! ### The copies of a complete merge -/

/-- The copies of the parents, by their maps. -/
def parentCopies (contexts runs sessions : IdMap) : Copies :=
  fun table id => (parentMaps contexts runs sessions table id).getD 0

/-- The contexts that runs and sessions refer to are copied. -/
theorem known_of_contexts {db withContexts : Database} {contexts runs sessions : IdMap}
    {table : TableName}
    (hreferences : (ddl table).references = [("context_id", .tuningContexts)])
    (hmerged : ContextsMerged (src.tables .tuningContexts).rows dest withContexts contexts)
    (hlater : ∀ id, withContexts.HasId .tuningContexts id → db.HasId .tuningContexts id) :
    Known (parentMaps contexts runs sessions) (parentCopies contexts runs sessions) src db
      table := by
  constructor
  · intro reference hmem id hid
    rw [hreferences, List.mem_singleton] at hmem
    subst hmem
    exact hmerged.map_eq hid
  · intro reference hmem id hid
    rw [hreferences, List.mem_singleton] at hmem
    subst hmem
    exact hlater _ (hmerged.hasCopy hid)

/-- The children refer to runs and sessions, as the DDL declares. -/
theorem mergeTables_references : ∀ child ∈ mergeTables, child.2 = (ddl child.1).references ∧
    ∀ reference ∈ child.2, reference.2 = .runs ∨ reference.2 = .tunerSessions := by
  decide

theorem mergeTables_nodup : (mergeTables.map Prod.fst).Nodup := by
  decide

/-- Contexts, runs and sessions are the tables that are not copied as children. -/
theorem not_mem_mergeTables {table : TableName} : table ∉ mergeTables.map Prod.fst ↔
    table = .tuningContexts ∨ table = .runs ∨ table = .tunerSessions := by
  cases table <;> decide

/-- The parents that the children refer to are copied. -/
theorem known_of_parents {withContexts withRuns withSessions : Database}
    {contexts runs sessions : IdMap} {copyRun copySession : Row → Row}
    (hruns : Copied .runs copyRun (src.tables .runs).rows withContexts withRuns runs)
    (hsessions : Copied .tunerSessions copySession (src.tables .tunerSessions).rows withRuns
      withSessions sessions) {child : TableName × List (String × TableName)}
    (hchild : child ∈ mergeTables) :
    Known (parentMaps contexts runs sessions) (parentCopies contexts runs sessions) src
      withSessions child.1 := by
  obtain ⟨hreferences, hparents⟩ := mergeTables_references child hchild
  rw [hreferences] at hparents
  constructor
  · intro reference hmem id hid
    rcases hparents reference hmem with hparent | hparent
    · rw [hparent] at hid ⊢
      exact hruns.map_eq hid
    · rw [hparent] at hid ⊢
      exact hsessions.map_eq hid
  · intro reference hmem id hid
    rcases hparents reference hmem with hparent | hparent
    · rw [hparent] at hid ⊢
      exact hsessions.hasId (hruns.hasCopy hid)
    · rw [hparent] at hid ⊢
      exact hsessions.hasCopy hid

namespace Passes

theorem contextsMerged (passes : Passes faults dest src merged) (hsrc : src.Valid) :
    ContextsMerged (src.tables .tuningContexts).rows dest passes.withContexts
      passes.contexts :=
  (mergeContexts_merged (src.tables .tuningContexts).ids_nodup
    (fun entry hentry => project_eq (hsrc.columns .tuningContexts entry hentry))
    passes.contextsRun).1

/-- The copies of the parents. -/
def parents (passes : Passes faults dest src merged) : Copies :=
  parentCopies passes.contexts passes.runs passes.sessions

theorem runsCopied (passes : Passes faults dest src merged) (hsrc : src.Valid) :
    Copied .runs (copyOf passes.parents .runs) (src.tables .runs).rows passes.withContexts
      passes.withRuns passes.runs :=
  copyParent_copied rfl (known_of_contexts rfl (passes.contextsMerged hsrc) fun _ => id) hsrc
    passes.runsRun

theorem sessionsCopied (passes : Passes faults dest src merged) (hsrc : src.Valid) :
    Copied .tunerSessions (copyOf passes.parents .tunerSessions)
      (src.tables .tunerSessions).rows passes.withRuns passes.withSessions passes.sessions :=
  copyParent_copied rfl (known_of_contexts rfl (passes.contextsMerged hsrc) fun _ =>
    (passes.runsCopied hsrc).hasId) hsrc passes.sessionsRun

theorem childrenCopied (passes : Passes faults dest src merged) (hsrc : src.Valid) :
    ChildrenCopied passes.parents src (mergeTables.map Prod.fst) passes.withSessions
      passes.withChildren := by
  refine mergeChildren_copied mergeTables_nodup (fun child hchild entry hentry => ?_)
    passes.childrenRun
  rw [(mergeTables_references child hchild).1]
  exact childRow_eq (known_of_parents (passes.runsCopied hsrc) (passes.sessionsCopied hsrc) hchild)
    (hsrc.fits child.1 entry hentry) (hsrc.columns child.1 entry hentry)

theorem journalMoved (passes : Passes faults dest src merged) (hsrc : src.Valid) :
    passes.withJournal.tables = passes.withChildren.tables ∧
      passes.withJournal.banks = passes.withChildren.banks ∧
      passes.withJournal.journal = passes.withChildren.journal ++
        (src.journal.insertionSort journalOrder).map
          (JournalRow.moved (passes.parents .tunerSessions)) :=
  mergeJournal_merged (fun row hrow => (passes.sessionsCopied hsrc).map_eq
    (hsrc.journalResolves row ((List.mem_insertionSort _).mp hrow))) passes.journalRun

theorem banksMerged (passes : Passes faults dest src merged) (hsrc : src.Valid) :
    BanksMerged ((src.banks.insertionSort bankOrder).map
      (BankRow.moved (passes.parents .tuningContexts))) passes.withJournal merged :=
  mergeBanks_merged (fun bank hbank => (passes.contextsMerged hsrc).map_eq
    (hsrc.banksResolve bank ((List.mem_insertionSort _).mp hbank))) passes.banksRun

/-- The merged tables are those that the children are copied into. -/
theorem tables_eq (passes : Passes faults dest src merged) (hsrc : src.Valid) :
    merged.tables = passes.withChildren.tables :=
  (passes.banksMerged hsrc).tables.trans (passes.journalMoved hsrc).1

/-- The rows of a table behind the passes, where one of them copied it. -/
theorem rows_eq (passes : Passes faults dest src merged) (hsrc : src.Valid) {copy : Copies}
    (hparents : ∀ table ∉ mergeTables.map Prod.fst, copy table = passes.parents table)
    (hchildren : ∀ table ∈ mergeTables.map Prod.fst, (passes.withChildren.tables table).rows =
      (passes.withSessions.tables table).rows ++ (src.tables table).rows.map fun entry =>
        (copy table entry.1, copyOf passes.parents table entry.2))
    {table : TableName} (htable : table ≠ .tuningContexts) :
    (merged.tables table).rows = (dest.tables table).rows ++
      (src.tables table).rows.map fun entry =>
        (copy table entry.1, copyOf passes.parents table entry.2) := by
  rw [passes.tables_eq hsrc]
  have hcontexts := (passes.contextsMerged hsrc).others
  have hruns := passes.runsCopied hsrc
  have hsessions := passes.sessionsCopied hsrc
  by_cases hchild : table ∈ mergeTables.map Prod.fst
  · have hne : table ≠ .runs ∧ table ≠ .tunerSessions := by
      constructor <;> rintro rfl <;> revert hchild <;> decide
    rw [hchildren table hchild, hsessions.others table hne.2, hruns.others table hne.1,
      hcontexts table htable]
  · rw [hparents table hchild, (passes.childrenCopied hsrc).others table hchild]
    rcases (not_mem_mergeTables.mp hchild) with rfl | rfl | rfl
    · exact absurd rfl htable
    · rw [hsessions.others .runs (by decide), hruns.stored, hcontexts .runs (by decide)]
      rfl
    · rw [hsessions.stored, hruns.others .tunerSessions (by decide),
        hcontexts .tunerSessions (by decide)]
      rfl

/-- The journal and the banks before their passes are the destination's. -/
theorem journal_banks_eq (passes : Passes faults dest src merged) (hsrc : src.Valid) :
    passes.withChildren.journal = dest.journal ∧ passes.withChildren.banks = dest.banks := by
  have hchildren := passes.childrenCopied hsrc
  have hsessions := passes.sessionsCopied hsrc
  have hruns := passes.runsCopied hsrc
  have hcontexts := passes.contextsMerged hsrc
  constructor
  · rw [hchildren.journal, hsessions.journal, hruns.journal, hcontexts.journal]
  · rw [hchildren.banks, hsessions.banks, hruns.banks, hcontexts.banks]

/-- No table refers to one that is copied as children. -/
theorem references_parents (table : TableName) :
    ∀ reference ∈ (ddl table).references, reference.2 ∉ mergeTables.map Prod.fst := by
  cases table <;> decide

end Passes

theorem bankSeconds_perm {banks others : List BankRow} (hperm : banks.Perm others)
    (key : Int × Int × String × Int) : bankSeconds banks key = bankSeconds others key :=
  ((hperm.filter _).map _).sum_eq

/-- A complete merge leaves what a lossless one leaves. -/
theorem Passes.lossless (passes : Passes faults dest src merged) (hdest : dest.Valid)
    (hsrc : src.Valid) : ∃ copy, Merged copy dest src merged := by
  obtain ⟨ids, hids⟩ : ∃ ids : Copies, ∀ table ∈ mergeTables.map Prod.fst,
      (passes.withChildren.tables table).rows = (passes.withSessions.tables table).rows ++
        (src.tables table).rows.map fun entry =>
          (ids table entry.1, copyOf passes.parents table entry.2) := by
    choose! ids hids using (passes.childrenCopied hsrc).stored
    exact ⟨ids, hids⟩
  -- One map of IDs for the merge as a whole: the children's own, and the parents' elsewhere.
  obtain ⟨copy, hchild, hparent⟩ : ∃ copy : Copies,
      (∀ table ∈ mergeTables.map Prod.fst, copy table = ids table) ∧
        ∀ table ∉ mergeTables.map Prod.fst, copy table = passes.parents table :=
    ⟨fun table => if table ∈ mergeTables.map Prod.fst then ids table else passes.parents table,
      fun table htable => if_pos htable, fun table htable => if_neg htable⟩
  have hcopyOf : ∀ table row, copyOf passes.parents table row = copyOf copy table row :=
    fun table row => copyOf_congr fun reference hmem =>
      (hparent _ (Passes.references_parents table reference hmem)).symm
  have hcontextCopy : copy .tuningContexts = passes.parents .tuningContexts :=
    hparent _ (by decide)
  have hsessionCopy : copy .tunerSessions = passes.parents .tunerSessions :=
    hparent _ (by decide)
  have hcontexts := passes.contextsMerged hsrc
  have hcontextRows : merged.tables .tuningContexts =
      passes.withContexts.tables .tuningContexts := by
    rw [passes.tables_eq hsrc, (passes.childrenCopied hsrc).others _ (by decide),
      (passes.sessionsCopied hsrc).others _ (by decide),
      (passes.runsCopied hsrc).others _ (by decide)]
  obtain ⟨hjournal, hbanksBefore⟩ := passes.journal_banks_eq hsrc
  have hmoved := passes.journalMoved hsrc
  have hbanks := passes.banksMerged hsrc
  have hbanksDest : passes.withJournal.banks = dest.banks := hmoved.2.1.trans hbanksBefore
  -- The source is read in sorted order, which changes no sum and no set of keys.
  have hsorted : ((src.banks.insertionSort bankOrder).map
      (BankRow.moved (passes.parents .tuningContexts))).Perm
        (src.banks.map (BankRow.moved (passes.parents .tuningContexts))) :=
    (List.perm_insertionSort _ _).map _
  refine ⟨copy, ?_, ?_, ?_, ?_, ?_, ?_, ?_, ?_, ?_, ?_⟩
  · intro table htable
    rw [passes.rows_eq hsrc hparent (fun child hmem => ?_) htable]
    · simp only [hcopyOf]
    · rw [hids child hmem, hchild child hmem]
  · obtain ⟨added, hadded, hstored⟩ := hcontexts.stored
    rw [hcontextRows, hcontextCopy]
    exact ⟨added, hadded, hstored⟩
  · intro entry hentry
    obtain ⟨held, hheld, hmap, hkey⟩ := hcontexts.found entry hentry
    rw [hcontextRows, hcontextCopy]
    refine ⟨held, hheld, ?_, hkey⟩
    show held.1 = (passes.contexts entry.1).getD 0
    rw [hmap, Option.getD_some]
  · rw [hcontextRows]
    exact hcontexts.distinct (hdest.distinct .tuningContexts)
  · rw [hbanks.journal, hmoved.2.2, hjournal, hsessionCopy]
    exact ⟨_, rfl, (List.perm_insertionSort _ _).map _⟩
  · rw [hcontextCopy, List.map_map]
    refine List.Nodup.map_on (fun bank hbank other hother hsame => ?_)
      (List.Nodup.of_map _ hsrc.banksDistinct)
    obtain ⟨hcontext, hrest⟩ := Prod.mk.inj hsame
    refine List.inj_on_of_nodup_map hsrc.banksDistinct hbank hother (Prod.ext ?_ hrest)
    exact hcontexts.injective hsrc (hsrc.banksResolve bank hbank)
      (hsrc.banksResolve other hother) hcontext
  · intro key
    rw [hbanks.keys, hbanksDest, hcontextCopy, (hsorted.map BankRow.key).mem_iff]
  · exact hbanks.distinct (by rw [hbanksDest]; exact hdest.banksDistinct)
  · intro key
    rw [hbanks.seconds (by rw [hbanksDest]; exact hdest.banksDistinct), hbanksDest, hcontextCopy,
      bankSeconds_perm hsorted]
  · intro bank hbank hnot
    refine hbanks.kept bank (by rwa [hbanksDest]) ?_
    rwa [hcontextCopy, ← (hsorted.map BankRow.key).mem_iff] at hnot

/-- Between valid databases every pass of a merge without a fault completes. -/
theorem exists_passes (hfaults : ∀ statement, faults statement = false) (hdest : dest.Valid)
    (hsrc : src.Valid) : ∃ merged, Nonempty (Passes faults dest src merged) := by
  have hproject : ∀ entry ∈ (src.tables .tuningContexts).rows,
      project .tuningContexts entry.2 = entry.2 := fun entry hentry =>
    project_eq (hsrc.columns .tuningContexts entry hentry)
  obtain ⟨⟨withContexts, contexts, count⟩, hcontextsRun⟩ :
      ∃ result, mergeContexts faults (src.tables .tuningContexts).rows dest IdMap.empty 0 =
        .ok result :=
    mergeContexts_complete hfaults hproject fun entry hentry =>
      (hsrc.fits .tuningContexts entry hentry).notNull
  have hcontexts :=
    (mergeContexts_merged (src.tables .tuningContexts).ids_nodup hproject hcontextsRun).1
  have hrunsKnown : Known (parentMaps contexts IdMap.empty IdMap.empty)
      (parentCopies contexts IdMap.empty IdMap.empty) src withContexts .runs :=
    known_of_contexts rfl hcontexts fun _ => id
  -- The passes run one after the other, so each is completed in the database of the one before.
  obtain ⟨withRuns, runs, hrunsRun⟩ := copyParent_complete hfaults rfl hrunsKnown hsrc rfl
  have hruns := copyParent_copied rfl hrunsKnown hsrc hrunsRun
  have hsessionsKnown : Known (parentMaps contexts IdMap.empty IdMap.empty)
      (parentCopies contexts IdMap.empty IdMap.empty) src withRuns .tunerSessions :=
    known_of_contexts rfl hcontexts fun _ => hruns.hasId
  obtain ⟨withSessions, sessions, hsessionsRun⟩ :=
    copyParent_complete hfaults rfl hsessionsKnown hsrc rfl
  have hsessions := copyParent_copied rfl hsessionsKnown hsrc hsessionsRun
  have hfresh : Fresh (fun id => (sessions id).getD 0) src dest .tunerSessions :=
    fresh_of_stored (by rw [hsessions.stored, hruns.others _ (by decide),
      hcontexts.others _ (by decide)])
  have hknown : ∀ child ∈ mergeTables, Known (parentMaps contexts runs sessions)
      (parentCopies contexts runs sessions) src withSessions child.1 :=
    fun _ => known_of_parents hruns hsessions
  have hchildRows : ∀ child ∈ mergeTables, ∀ entry ∈ (src.tables child.1).rows,
      childRow (parentMaps contexts runs sessions) child.1 child.2 entry.2 =
        some (copyOf (parentCopies contexts runs sessions) child.1 entry.2) := by
    intro child hchild entry hentry
    rw [(mergeTables_references child hchild).1]
    exact childRow_eq (hknown child hchild) (hsrc.fits child.1 entry hentry)
      (hsrc.columns child.1 entry hentry)
  -- No pass so far has touched the children's tables.
  have hbefore : ∀ child ∈ mergeTables, withSessions.tables child.1 = dest.tables child.1 := by
    intro child hchild
    have hne : child.1 ≠ .tuningContexts ∧ child.1 ≠ .runs ∧ child.1 ≠ .tunerSessions := by
      revert child
      decide
    rw [hsessions.others _ hne.2.2, hruns.others _ hne.2.1, hcontexts.others _ hne.1]
  obtain ⟨withChildren, hchildrenRun⟩ := mergeChildren_complete hfaults mergeTables_nodup hchildRows
    (fun child hchild entry hentry =>
      fits_copyOf (hsrc.fits child.1 entry hentry) (hknown child hchild).stored)
    (fun child hchild => by
      rw [hbefore child hchild]
      refine distinct_copies ?_ hdest hsrc hfresh
      revert child
      decide)
  have hchildren := mergeChildren_copied mergeTables_nodup hchildRows hchildrenRun
  have hsorted := List.perm_insertionSort journalOrder src.journal
  have hjournalMap : ∀ row ∈ src.journal.insertionSort journalOrder, sessions row.sessionId =
      some (parentCopies contexts runs sessions .tunerSessions row.sessionId) := fun row hrow =>
    hsessions.map_eq (hsrc.journalResolves row (hsorted.mem_iff.mp hrow))
  obtain ⟨withJournal, hjournalRun⟩ := mergeJournal_complete hfaults hjournalMap
    (fun row hrow => (Database.hasId_congr (hchildren.others .tunerSessions (by decide))).mpr
      (hsessions.hasCopy (hsrc.journalResolves row (hsorted.mem_iff.mp hrow))))
    (by
      rw [hchildren.journal, hsessions.journal, hruns.journal, hcontexts.journal]
      exact journalKeys_nodup hdest hsrc hfresh hsorted)
  have hjournal := (mergeJournal_merged hjournalMap hjournalRun).1
  have hsortedBanks := List.perm_insertionSort bankOrder src.banks
  have hbanksMap : ∀ bank ∈ src.banks.insertionSort bankOrder, contexts bank.contextId =
      some (parentCopies contexts runs sessions .tuningContexts bank.contextId) :=
    fun bank hbank =>
      hcontexts.map_eq (hsrc.banksResolve bank (hsortedBanks.mem_iff.mp hbank))
  obtain ⟨merged, hbanksRun⟩ := mergeBanks_complete hfaults hbanksMap fun bank hbank =>
    (Database.hasId_congr (congrFun hjournal _)).mpr
      ((Database.hasId_congr (hchildren.others .tuningContexts (by decide))).mpr
        (hsessions.hasId (hruns.hasId (hcontexts.hasCopy
          (hsrc.banksResolve bank (hsortedBanks.mem_iff.mp hbank))))))
  exact ⟨merged, ⟨{ withContexts, contexts, count, withRuns, runs, withSessions, sessions,
                    withChildren, withJournal, contextsRun := hcontextsRun,
                    runsRun := hrunsRun, sessionsRun := hsessionsRun,
                    childrenRun := hchildrenRun, journalRun := hjournalRun,
                    banksRun := hbanksRun }⟩⟩

end Whole

/-- A merge of valid databases that completes is lossless; one that does not leaves the
destination as it was, and only a fault outside the schema keeps it from completing. -/
theorem mergeFrom_lossless (faults : Faults) (dest src : Database) (hdest : dest.Valid)
    (hsrc : src.Valid) :
    (∀ counts merged, mergeFrom faults dest src = (.ok counts, merged) →
      merged.Valid ∧ ∃ copy, Merged copy dest src merged) ∧
    (∀ error after, mergeFrom faults dest src = (.error error, after) → after = dest) ∧
    ((∀ statement, faults statement = false) →
      ∃ counts merged, mergeFrom faults dest src = (.ok counts, merged)) := by
  refine ⟨fun counts merged hok => ?_, fun error after herror => ?_, fun hfaults => ?_⟩
  · cases hrun : mergeStatements faults dest src with
    | error error => simp [mergeFrom, hrun] at hok
    | ok result =>
        rw [mergeFrom, hrun] at hok
        cases hok
        obtain ⟨passes⟩ := mergeStatements_ok hrun
        obtain ⟨copy, hmerged⟩ := passes.lossless hdest hsrc
        exact ⟨hmerged.valid hdest hsrc, copy, hmerged⟩
  · cases hrun : mergeStatements faults dest src with
    | error error =>
        rw [mergeFrom, hrun] at herror
        exact (Prod.mk.inj herror).2.symm
    | ok result => simp [mergeFrom, hrun] at herror
  · obtain ⟨merged, ⟨passes⟩⟩ := exists_passes hfaults hdest hsrc
    obtain ⟨counts, hrun⟩ := mergeStatements_of_passes hfaults passes
    exact ⟨counts, merged, by rw [mergeFrom, hrun]⟩

/-- A row of one session, in one context. -/
def sampleRow (table : TableName) : Row := fun column =>
  if column ∈ (ddl table).columns then
    match column with
    | "context_hash" => .text "c0ffee"
    | "session_id" | "context_id" => .integer 1
    | _ => .integer 0
  else .null

/-- A table of one row. -/
def singleTable (row : Row) : Table Row where
  rows := [(1, row)]
  seq := 1
  ascending := List.pairwise_singleton _ _
  bounded := by simp

/-- A database of one session, which banked some time at an offset. -/
def sampleDatabase (seconds : ℚ) : Database where
  tables := fun table =>
    if table = .tuningContexts ∨ table = .tunerSessions ∨ table = .tunerCoreStates then
      singleTable (sampleRow table)
    else { rows := [], seq := 0, ascending := .nil, bounded := nofun }
  journal := [{ sessionId := 1, coreId := 0, value := -20, survived := 1,
                updatedAt := "2026-07-20T10:00:00+00:00" }]
  banks := [{ contextId := 1, coreId := 0, regime := "boost", offsetValue := -20,
              cleanSeconds := seconds, updatedAt := "2026-07-20T10:00:00+00:00" }]

/-- The tables that have the one row. -/
def sampleTables : List TableName := [.tuningContexts, .tunerSessions, .tunerCoreStates]

theorem mem_sampleDatabase {seconds : ℚ} {table : TableName} {entry : Int × Row}
    (hentry : entry ∈ ((sampleDatabase seconds).tables table).rows) :
    table ∈ sampleTables ∧ entry = (1, sampleRow table) := by
  revert hentry
  cases table <;> simp [sampleDatabase, singleTable, sampleTables]

theorem sampleRow_ne_null : ∀ table ∈ sampleTables, ∀ column ∈ (ddl table).columns,
    sampleRow table column ≠ .null := by
  decide +kernel

theorem sampleDatabase_resolves (seconds : ℚ) : ∀ table ∈ sampleTables,
    ∀ reference ∈ (ddl table).references,
      (sampleDatabase seconds).Resolves reference.2 (sampleRow table reference.1) := by
  have hcontext : (sampleDatabase seconds).HasId .tuningContexts 1 :=
    ⟨_, List.mem_singleton.mpr rfl, rfl⟩
  have hsession : (sampleDatabase seconds).HasId .tunerSessions 1 :=
    ⟨_, List.mem_singleton.mpr rfl, rfl⟩
  intro table htable reference hmem
  simp only [sampleTables, List.mem_cons, List.not_mem_nil, or_false] at htable
  rcases htable with rfl | rfl | rfl
  · cases hmem
  · cases List.mem_singleton.mp hmem
    exact hcontext
  · cases List.mem_singleton.mp hmem
    exact hsession

theorem sampleDatabase_valid (seconds : ℚ) : (sampleDatabase seconds).Valid where
  fits := by
    intro table entry hentry
    obtain ⟨htable, rfl⟩ := mem_sampleDatabase hentry
    exact ⟨fun column hcolumn _ => sampleRow_ne_null table htable column hcolumn,
      sampleDatabase_resolves seconds table htable⟩
  columns := by
    intro table entry hentry column hcolumn
    obtain ⟨-, rfl⟩ := mem_sampleDatabase hentry
    exact if_neg hcolumn
  distinct := by
    intro table key _
    refine List.pairwise_map.mpr ?_
    cases table <;> simp [sampleDatabase, singleTable]
  journalResolves := by
    intro row hrow
    cases List.mem_singleton.mp hrow
    exact ⟨_, List.mem_singleton.mpr rfl, rfl⟩
  journalDistinct := List.nodup_singleton _
  banksResolve := by
    intro bank hbank
    cases List.mem_singleton.mp hbank
    exact ⟨_, List.mem_singleton.mpr rfl, rfl⟩
  banksDistinct := List.nodup_singleton _

/-- Two databases of the same context. -/
theorem mergeFrom_lossless_sample : ∃ counts merged,
    mergeFrom (fun _ => false) (sampleDatabase 600) (sampleDatabase 300) = (.ok counts, merged) ∧
      merged.Valid ∧ ∃ copy, Merged copy (sampleDatabase 600) (sampleDatabase 300) merged := by
  obtain ⟨hok, -, hcomplete⟩ := mergeFrom_lossless (fun _ => false) (sampleDatabase 600)
    (sampleDatabase 300) (sampleDatabase_valid 600) (sampleDatabase_valid 300)
  obtain ⟨counts, merged, hrun⟩ := hcomplete fun _ => rfl
  exact ⟨counts, merged, hrun, hok counts merged hrun⟩

end History
end CoreCycler
