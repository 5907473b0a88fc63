import CoreCycler.History.Integrity

/-!
# What calls may do to records that are there

An ID is handed out once.  A finished run is written to no more.  A run or session in flight, with
all that has been recorded under it, stays until a call takes it out of flight; a purge is the one
call that does not ask.  A context that is deleted takes exactly its own records along.
-/

namespace CoreCycler
namespace History

open Library Library.Tables

variable {db later : Database} {table : TableName}

/-! ## IDs are handed out once -/

/-- No ID that has been handed out and given back is there again. -/
structure Later (db later : Database) : Prop where
  seq : ∀ table, (db.tables table).seq ≤ (later.tables table).seq
  known : ∀ table id, id ≤ (db.tables table).seq → later.HasId table id → db.HasId table id

namespace Later

theorem refl (db : Database) : Later db db :=
  ⟨fun _ => Int.le_refl _, fun _ _ _ hid => hid⟩

theorem trans {last : Database} (hfirst : Later db later) (hsecond : Later later last) :
    Later db last where
  seq := fun table => (hfirst.seq table).trans (hsecond.seq table)
  known := fun table id hle hid =>
    hfirst.known table id hle (hsecond.known table id (hle.trans (hfirst.seq table)) hid)

theorem modify (db : Database) (table : TableName) (change : Int × Row → Row) :
    Later db (db.modify table change) where
  seq := fun other => by
    by_cases hother : other = table
    · subst hother
      simp
    · rw [Database.tables_modify_of_ne db change hother]
  known := fun other id _ hid => Database.hasId_modify.mp hid

theorem without (db : Database) (table : TableName) (gone : List Int) :
    Later db (db.without table gone) where
  seq := fun _ => Int.le_refl _
  known := fun other id _ hid => by
    obtain ⟨entry, hentry, rfl⟩ := hid
    exact ⟨entry, (Database.mem_without.mp hentry).1, rfl⟩

end Later

/-- Rows only come behind the others, under new IDs; no core leaves the journal. -/
structure Grows (db later : Database) : Prop where
  tables : ∀ table, (db.tables table).seq ≤ (later.tables table).seq ∧ ∃ new,
    (later.tables table).rows = (db.tables table).rows ++ new ∧
      ∀ entry ∈ new, (db.tables table).seq < entry.1
  journal : db.journal.map JournalRow.key ⊆ later.journal.map JournalRow.key

namespace Grows

theorem of_tables (htables : later.tables = db.tables)
    (hjournal : db.journal.map JournalRow.key ⊆ later.journal.map JournalRow.key) :
    Grows db later where
  tables := fun table => by
    rw [htables]
    exact ⟨Int.le_refl _, [], (List.append_nil _).symm, fun _ hentry => by cases hentry⟩
  journal := hjournal

theorem refl (db : Database) : Grows db db :=
  of_tables rfl (List.Subset.refl _)

theorem trans {last : Database} (hfirst : Grows db later) (hsecond : Grows later last) :
    Grows db last where
  tables := fun table => by
    obtain ⟨hseq, new, hrows, hnew⟩ := hfirst.tables table
    obtain ⟨hseq', newer, hrows', hnewer⟩ := hsecond.tables table
    refine ⟨hseq.trans hseq', new ++ newer, by rw [hrows', hrows, List.append_assoc],
      fun entry hentry => ?_⟩
    rcases List.mem_append.mp hentry with hentry | hentry
    · exact hnew entry hentry
    · exact hseq.trans_lt (hnewer entry hentry)
  journal := fun key hkey => hsecond.journal (hfirst.journal hkey)

theorem append (db : Database) (table : TableName) (row : Row) :
    Grows db (db.append table row) where
  tables := fun other => by
    by_cases hother : other = table
    · subst hother
      rw [Database.tables_append]
      refine ⟨by simp, [((db.tables other).seq + 1, row)], rfl, fun entry hentry => ?_⟩
      rw [List.mem_singleton.mp hentry]
      exact Int.lt_succ _
    · rw [Database.tables_append_of_ne db row hother]
      exact ⟨Int.le_refl _, [], (List.append_nil _).symm, fun _ hentry => by cases hentry⟩
  journal := List.Subset.refl _

theorem insert {row : Row} (hinserted : db.insert table row = .ok later) : Grows db later := by
  obtain ⟨-, -, rfl⟩ := Database.insert_eq_ok.mp hinserted
  exact append db table row

theorem toLater (hgrows : Grows db later) : Later db later where
  seq := fun table => (hgrows.tables table).1
  known := fun table id hle hid => by
    obtain ⟨-, new, hrows, hnew⟩ := hgrows.tables table
    obtain ⟨entry, hentry, rfl⟩ := hid
    rw [hrows] at hentry
    rcases List.mem_append.mp hentry with hold | hentry
    · exact ⟨entry, hold, rfl⟩
    · have := hnew entry hentry
      omega

/-- Every row stays. -/
theorem mem (hgrows : Grows db later) {entry : Int × Row} (hentry : entry ∈ (db.tables table).rows) :
    entry ∈ (later.tables table).rows := by
  obtain ⟨-, new, hrows, -⟩ := hgrows.tables table
  rw [hrows]
  exact List.mem_append_left _ hentry

end Grows

/-! ## A merge only adds rows -/

variable {faults : Faults}

theorem mergeContext_grows {id new : Int} {row : Row} {copied : Bool}
    (hmerged : mergeContext faults db id row = .ok (later, new, copied)) : Grows db later := by
  unfold mergeContext at hmerged
  split at hmerged
  · cases hmerged
  · split at hmerged
    · cases hmerged
    · rename_i inserted hinserted
      cases hmerged
      exact Grows.insert (Database.insertOrIgnore_some hinserted).1
    · rename_i kept hkept
      split at hmerged
      · cases hmerged
      · split at hmerged
        · cases hmerged
        · cases hmerged
          rw [Database.insertOrIgnore_none hkept]
          exact Grows.refl _

theorem mergeContexts_grows {rows : List (Int × Row)} : ∀ {db later : Database}
    {map merged : IdMap} {count total : Nat},
    mergeContexts faults rows db map count = .ok (later, merged, total) → Grows db later := by
  induction rows with
  | nil =>
      intro db later map merged count total hmerged
      cases hmerged
      exact Grows.refl _
  | cons entry rest ih =>
      intro db later map merged count total hmerged
      unfold mergeContexts at hmerged
      split at hmerged
      · cases hmerged
      · rename_i stored new copied hstored
        exact (mergeContext_grows hstored).trans (ih hmerged)

theorem copyRows_grows {remap : Row → Option Row} {rows : List (Int × Row)} :
    ∀ {db later : Database} {map copied : IdMap},
    copyRows faults table remap rows db map = .ok (later, copied) → Grows db later := by
  induction rows with
  | nil =>
      intro db later map copied hcopied
      cases hcopied
      exact Grows.refl _
  | cons entry rest ih =>
      intro db later map copied hcopied
      unfold copyRows at hcopied
      split at hcopied
      · exact ih hcopied
      · split at hcopied
        · cases hcopied
        · split at hcopied
          · cases hcopied
          · rename_i inserted hinserted
            exact (Grows.insert hinserted).trans (ih hcopied)

theorem mergeChildren_grows {maps : TableName → IdMap} {src : Database}
    {children : List (TableName × List (String × TableName))} : ∀ {db later : Database},
    mergeChildren faults maps src children db = .ok later → Grows db later := by
  induction children with
  | nil =>
      intro db later hmerged
      cases hmerged
      exact Grows.refl _
  | cons child rest ih =>
      intro db later hmerged
      unfold mergeChildren at hmerged
      split at hmerged
      · cases hmerged
      · split at hmerged
        · cases hmerged
        · rename_i copied map hcopied
          exact (copyRows_grows hcopied).trans (ih hmerged)

theorem insertJournal_grows {row : JournalRow} (hinserted : db.insertJournal row = .ok later) :
    Grows db later := by
  obtain ⟨-, -, rfl⟩ := Database.insertJournal_eq_ok.mp hinserted
  refine Grows.of_tables rfl ?_
  rw [List.map_append]
  exact List.subset_append_left _ _

theorem mergeJournal_grows {sessions : IdMap} {rows : List JournalRow} : ∀ {db later : Database},
    mergeJournal faults sessions rows db = .ok later → Grows db later := by
  induction rows with
  | nil =>
      intro db later hmerged
      cases hmerged
      exact Grows.refl _
  | cons row rest ih =>
      intro db later hmerged
      unfold mergeJournal at hmerged
      split at hmerged
      · exact ih hmerged
      · split at hmerged
        · cases hmerged
        · split at hmerged
          · cases hmerged
          · rename_i inserted hinserted
            exact (insertJournal_grows hinserted).trans (ih hmerged)

theorem upsertBank_grows {bank : BankRow} (hupserted : db.upsertBank bank = .ok later) :
    Grows db later := by
  unfold Database.upsertBank at hupserted
  split at hupserted
  · cases hupserted
  · split at hupserted
    · cases hupserted
      exact Grows.of_tables rfl (List.Subset.refl _)
    · cases hupserted
      exact Grows.of_tables rfl (List.Subset.refl _)

theorem mergeBanks_grows {contexts : IdMap} {rows : List BankRow} : ∀ {db later : Database},
    mergeBanks faults contexts rows db = .ok later → Grows db later := by
  induction rows with
  | nil =>
      intro db later hmerged
      cases hmerged
      exact Grows.refl _
  | cons bank rest ih =>
      intro db later hmerged
      unfold mergeBanks at hmerged
      split at hmerged
      · exact ih hmerged
      · split at hmerged
        · cases hmerged
        · split at hmerged
          · cases hmerged
          · rename_i stored hstored
            exact (upsertBank_grows hstored).trans (ih hmerged)

theorem copyParent_grows {contexts ids : IdMap} {parent : TableName} {src : Database}
    (hcopied : copyParent faults contexts parent src db = .ok (later, ids)) : Grows db later := by
  unfold copyParent at hcopied
  split at hcopied
  · cases hcopied
  · exact copyRows_grows hcopied

theorem mergeFrom_grows (faults : Faults) (db src : Database) :
    Grows db (mergeFrom faults db src).2 := by
  unfold mergeFrom
  cases hrun : mergeStatements faults db src with
  | error error => exact Grows.refl db
  | ok result =>
      obtain ⟨passes⟩ := mergeStatements_ok hrun
      have hparents := ((mergeContexts_grows passes.contextsRun).trans
        (copyParent_grows passes.runsRun)).trans (copyParent_grows passes.sessionsRun)
      exact ((hparents.trans (mergeChildren_grows passes.childrenRun)).trans
        (mergeJournal_grows passes.journalRun)).trans (mergeBanks_grows passes.banksRun)

/-! ## What a call does -/

/-- The states of a record in flight. -/
def flight : TableName → List String
  | .runs => ["running"]
  | .tunerSessions => resumableStatuses
  | _ => []

/-- The record is there, and in flight. -/
def Database.InFlight (db : Database) (table : TableName) (id : Int) : Prop :=
  ∃ row, (id, row) ∈ (db.tables table).rows ∧ hasStatus (flight table) row = true

/-- A call that may take a record out of flight. -/
def Call.EndsFlight : Call → TableName → Int → Prop
  | .finishRun runId summary, .runs, id => runId = id ∧ summary.status ≠ "running"
  | .recoverIncompleteRuns, .runs, _ => True
  | .purgeBefore _, .runs, _ => True
  | .updateTunerSessionStatus sessionId status, .tunerSessions, id =>
      sessionId = id ∧ status ∉ resumableStatuses
  | _, _, _ => False

/-- Deletions, none of them of a record in flight that the call may not end. -/
inductive Sheds (call : Call) (db : Database) : Database → Prop where
  | none : Sheds call db db
  | delete {left : Database} {table : TableName} {gone : List Int} (hshed : Sheds call db left)
      (hroot : cascades table = [])
      (hidle : ∀ id ∈ gone, db.InFlight table id → call.EndsFlight table id) :
      Sheds call db (left.without table gone)

/-- The statements behind a call. -/
inductive Effect (call : Call) (db : Database) : Database → Prop where
  | adds {later : Database} (hgrows : Grows db later) : Effect call db later
  | updates {table : TableName} {which : Int × Row → Bool} {sets : List (String × Value)}
      (hsets : Settable table sets)
      (hruns : table = .runs → ∀ entry, which entry = true → hasStatus ["running"] entry.2 = true)
      (hflight : ∀ entry, which entry = true → hasStatus (flight table) entry.2 = true →
        call.EndsFlight table entry.1 ∨
          hasStatus (flight table) (setColumns entry.2 sets) = true) :
      Effect call db (db.updateWhere table which sets)
  | upserts {change : Int × Row → Row}
      (hkeeps : ∀ entry, change entry "session_id" = entry.2 "session_id") :
      Effect call db (db.modify .tunerCoreStates change)
  | deletes {later : Database} (hshed : Sheds call db later) : Effect call db later

namespace Effect

variable {call : Call} {now : String}

theorem same (call : Call) (db : Database) : Effect call db db :=
  deletes .none

theorem settled {result : Except Refusal Database}
    (hresult : ∀ later, result = .ok later → Effect call db later) :
    Effect call db (settled db result) := by
  cases result with
  | ok later => exact hresult later rfl
  | error refusal => exact same call db

end Effect

theorem hasStatus_setColumns {statuses : List String} {row : Row} {sets : List (String × Value)}
    (hsets : "status" ∉ sets.map Prod.fst) :
    hasStatus statuses (setColumns row sets) = hasStatus statuses row := by
  unfold hasStatus
  rw [setColumns_of_not_mem hsets]

/-- Only runs and sessions are ever in flight. -/
theorem not_inFlight {row : Row} (htable : flight table = []) :
    ¬hasStatus (flight table) row = true := by
  rw [htable, hasStatus]
  split
  · simp
  · simp

theorem insertRecord_grows {record : Row} {id : Int}
    (hinserted : insertRecord db table record = .ok (id, later)) : Grows db later := by
  unfold insertRecord at hinserted
  split at hinserted
  · rename_i inserted hstored
    cases hinserted
    exact Grows.insert hstored
  · cases hinserted

theorem Effect.stored (call : Call) (db : Database) (table : TableName) (record : Row) :
    Effect call db (stored db (insertRecord db table record)) := by
  cases hinserted : insertRecord db table record with
  | ok result => exact .adds (insertRecord_grows hinserted)
  | error refusal => exact .same call db

theorem Effect.setSession (call : Call) (db : Database) {sessionId : Int}
    {sets : List (String × Value)} (hsets : Settable .tunerSessions sets)
    (hstatus : "status" ∉ sets.map Prod.fst) : Effect call db (setSession db sessionId sets) :=
  .updates hsets (fun htable => by cases htable) fun entry _ hflight => .inr (by rwa [hasStatus_setColumns hstatus])

theorem insertTelemetryBatch_grows (now : String) (samples : List Row) :
    ∀ db, Grows db (insertTelemetryBatch db now samples).2 := by
  induction samples with
  | nil => exact fun db => Grows.refl db
  | cons sample rest ih =>
      intro db
      unfold insertTelemetryBatch
      split
      · rename_i id inserted hinserted
        exact (insertRecord_grows hinserted).trans (ih inserted)
      · exact Grows.refl db

theorem getOrCreateContext_grows (db : Database) (now : String) (ctx : Row) :
    Grows db (stored db (getOrCreateContext db now ctx)) := by
  unfold getOrCreateContext
  simp only
  split
  · exact Grows.refl db
  · rename_i id inserted hinserted
    exact Grows.insert (Database.insertOrIgnore_some hinserted).1
  · split
    · exact Grows.refl db
    · exact Grows.refl db

theorem journalCoIntent_grows {now : String} {sessionId coreId value : Int} {survived : Bool}
    (hwritten : journalCoIntent db now sessionId coreId value survived = .ok later) :
    Grows db later := by
  unfold journalCoIntent at hwritten
  simp only at hwritten
  generalize JournalRow.mk sessionId coreId value (if survived then 1 else 0) now = row at hwritten
  split at hwritten
  · cases hwritten
    refine Grows.of_tables rfl ?_
    rw [map_key_of_keeps fun held => ?_]
    · exact List.Subset.refl _
    · split
      · rename_i hkey
        exact hkey.symm
      · rfl
  · split at hwritten
    · cases hwritten
    · cases hwritten
      refine Grows.of_tables rfl ?_
      rw [List.map_append]
      exact List.subset_append_left _ _

theorem journalMarkSurvived_grows (db : Database) (now : String) (sessionId : Int)
    (excludeCores : List Int) : Grows db (journalMarkSurvived db now sessionId excludeCores) := by
  refine Grows.of_tables rfl ?_
  unfold journalMarkSurvived
  rw [map_key_of_keeps fun row => ?_]
  · exact List.Subset.refl _
  · split
    · rfl
    · rfl

theorem bankRegimeTime_grows {now : String} {contextId coreId : Int} {regime : String}
    {offsetValue : Int} {seconds : ℚ}
    (hbanked : bankRegimeTime db now contextId coreId regime offsetValue seconds = .ok later) :
    Grows db later := by
  unfold bankRegimeTime at hbanked
  simp only at hbanked
  split at hbanked
  · cases hbanked
    exact Grows.of_tables rfl (List.Subset.refl _)
  · split at hbanked
    · cases hbanked
    · cases hbanked
      exact Grows.of_tables rfl (List.Subset.refl _)

/-- A core state that is there keeps its session. -/
theorem upsertTunerCoreState_effect (call : Call) {now : String} {sessionId : Int} {state : Row}
    (hupserted : upsertTunerCoreState db now sessionId state = .ok later) :
    Effect call db later := by
  unfold upsertTunerCoreState at hupserted
  split at hupserted
  · cases hupserted
  simp only at hupserted
  split at hupserted
  · cases hupserted
  split at hupserted
  · cases hupserted
    refine .upserts fun entry => ?_
    split
    · rename_i hkey
      exact ((of_decide_eq_true hkey) "session_id" (by simp)).symm
    · rfl
  · split at hupserted
    · rename_i inserted hinserted
      cases hupserted
      exact .adds (Grows.insert hinserted)
    · cases hupserted

/-! ### Deletions -/

theorem deleteWhere_eq_ok {which : Int × Row → Bool} :
    db.deleteWhere table which = .ok later ↔
      ¬ (db.without table (db.idsWhere table which)).Dangles table (db.idsWhere table which) ∧
        later = db.without table (db.idsWhere table which) := by
  unfold Database.deleteWhere
  simp only
  split
  · rename_i hdangles
    exact ⟨fun h => (by cases h), fun h => absurd hdangles h.1⟩
  · rename_i hdangles
    exact ⟨fun h => ⟨hdangles, by cases h; rfl⟩, fun h => by rw [h.2]⟩

theorem mem_idsWhere {which : Int × Row → Bool} {id : Int} :
    id ∈ db.idsWhere table which ↔
      ∃ row, (id, row) ∈ (db.tables table).rows ∧ which (id, row) = true := by
  unfold Database.idsWhere
  rw [List.mem_map]
  constructor
  · rintro ⟨entry, hentry, rfl⟩
    exact ⟨entry.2, List.mem_filter.mp hentry⟩
  · rintro ⟨row, hrow⟩
    exact ⟨(id, row), List.mem_filter.mpr hrow, rfl⟩

/-- The rows after deletions were there before. -/
theorem Sheds.mem {call : Call} (hshed : Sheds call db later) {entry : Int × Row}
    (hentry : entry ∈ (later.tables table).rows) : entry ∈ (db.tables table).rows := by
  induction hshed with
  | none => exact hentry
  | delete hshed hroot hidle ih => exact ih (Database.mem_without.mp hentry).1

/-- A further deletion, of rows that are idle or that the call may end. -/
theorem Sheds.deleteWhere {call : Call} {left : Database} (hshed : Sheds call db left)
    (hroot : cascades table = []) {which : Int × Row → Bool} (hdeleted : left.deleteWhere table which = .ok later)
    (hidle : ∀ entry ∈ (db.tables table).rows, which entry = true →
      hasStatus (flight table) entry.2 = true → call.EndsFlight table entry.1) :
    Sheds call db later := by
  obtain ⟨-, rfl⟩ := deleteWhere_eq_ok.mp hdeleted
  refine hshed.delete hroot fun id hid hflight => ?_
  obtain ⟨row, hrow, hwhich⟩ := mem_idsWhere.mp hid
  obtain ⟨held, hheld, hstatus⟩ := hflight
  have hsame : held = row := (db.tables table).id_unique hheld (hshed.mem hrow)
  exact hidle (id, row) (hshed.mem hrow) hwhich (hsame ▸ hstatus)

theorem orRefuse_eq_ok {result : Except SqlError Database} :
    orRefuse result = .ok later ↔ result = .ok later := by
  cases result with
  | ok left => simp [orRefuse]
  | error error => simp [orRefuse]

theorem deleteIdle_effect (call : Call) (hroot : cascades table = []) {statuses : List String}
    (hstatuses : flight table = statuses) {id : Int}
    (hdeleted : deleteIdle db table statuses id = .ok later) : Effect call db later := by
  unfold deleteIdle at hdeleted
  split at hdeleted
  · cases hdeleted
  · rename_i hidle
    refine .deletes (Sheds.none.deleteWhere hroot (orRefuse_eq_ok.mp hdeleted) ?_)
    intro entry hentry hwhich hflight
    have := List.find?_eq_none.mp hidle entry hentry
    rw [hstatuses] at hflight
    simp_all

theorem deleteContextCascade_effect (call : Call) {contextId : Int}
    (hdeleted : deleteContextCascade db contextId = .ok later) : Effect call db later := by
  unfold deleteContextCascade at hdeleted
  split at hdeleted
  · cases hdeleted
  rename_i hruns
  split at hdeleted
  · cases hdeleted
  rename_i hsessions
  obtain ⟨withoutRuns, hdeletedRuns, hdeleted⟩ := bind_eq_ok (orRefuse_eq_ok.mp hdeleted)
  obtain ⟨withoutSessions, hdeletedSessions, hdeleted⟩ := bind_eq_ok hdeleted
  have hshedRuns : Sheds call db withoutRuns := Sheds.none.deleteWhere rfl hdeletedRuns
    fun entry hentry hwhich hflight => by
      have := List.find?_eq_none.mp hruns entry hentry
      simp_all [flight]
  have hshedSessions : Sheds call db withoutSessions :=
    hshedRuns.deleteWhere rfl hdeletedSessions
    fun entry hentry hwhich hflight => by
      have := List.find?_eq_none.mp hsessions entry hentry
      simp_all [flight]
  exact .deletes (hshedSessions.deleteWhere rfl hdeleted fun entry _ _ hflight =>
    absurd hflight (not_inFlight rfl))

/-! ### Every call -/

theorem perform_effect (db : Database) (now : String) (call : Call) :
    Effect call db (perform db now call) := by
  -- Each call adds rows, sets columns that may be set, or deletes rows that are not in flight.
  cases call with
  | createRun run => exact .stored _ db _ _
  | finishRun runId summary =>
      refine .updates (of_decide_eq_true rfl) (fun _ entry hwhich => ?_)
        fun entry hwhich hflight => ?_
      · simp only [Bool.and_eq_true, decide_eq_true_eq] at hwhich
        simp [hasStatus, hwhich.2]
      · simp only [Bool.and_eq_true, decide_eq_true_eq] at hwhich
        -- Only a summary that says so leaves a finished run in flight.
        by_cases hstatus : summary.status = "running"
        · exact .inr (by simp [hasStatus, setColumns, flight, hstatus])
        · exact .inl ⟨hwhich.1.symm, hstatus⟩
  | deleteRun runId => exact .settled fun _ hdeleted => deleteIdle_effect _ rfl rfl hdeleted
  | insertCoreResult rec => exact .stored _ db _ _
  | updateCoreResult resultId update =>
      exact .updates (settable_resultUpdate update) (fun htable => by cases htable)
        fun entry _ hflight => absurd hflight (not_inFlight rfl)
  | insertEvent event => exact .stored _ db _ _
  | insertTelemetryBatch samples => exact .adds (insertTelemetryBatch_grows now samples db)
  | getOrCreateContext ctx => exact .adds (getOrCreateContext_grows db now ctx)
  | updateContextNotes contextId notes =>
      exact .updates (of_decide_eq_true rfl) (fun htable => by cases htable)
        fun entry _ hflight => absurd hflight (not_inFlight rfl)
  | createTunerSession configJson biosVersion cpuModel appVersion contextId =>
      exact .stored _ db _ _
  | updateTunerSessionStatus sessionId status =>
      refine .updates (of_decide_eq_true rfl) (fun htable => by cases htable)
        fun entry hwhich hflight => ?_
      by_cases hstatus : status ∈ resumableStatuses
      · exact .inr (by simp [hasStatus, setColumns, flight, hstatus])
      · exact .inl ⟨(of_decide_eq_true hwhich).symm, hstatus⟩
  | setUnattributedCrashes sessionId value =>
      exact .setSession _ db (of_decide_eq_true rfl) (by simp)
  | setValidationPosition sessionId stage index half dirty requeueJson =>
      exact .setSession _ db (of_decide_eq_true rfl) (by simp)
  | setEndurancePosition sessionId round workload index =>
      exact .setSession _ db (of_decide_eq_true rfl) (by simp)
  | setSessionBoot sessionId bootId => exact .setSession _ db (of_decide_eq_true rfl) (by simp)
  | updateTunerSessionConfig sessionId configJson =>
      exact .setSession _ db (of_decide_eq_true rfl) (by simp)
  | setHuntState sessionId blob => exact .setSession _ db (of_decide_eq_true rfl) (by simp)
  | setResumeCrashStreak sessionId value => exact .setSession _ db (of_decide_eq_true rfl) (by simp)
  | insertTunerEvent sessionId message bootId severity => exact .stored _ db _ _
  | insertTunerTestLog sessionId entry => exact .stored _ db _ _
  | upsertTunerCoreState sessionId state =>
      exact .settled fun _ hupserted => upsertTunerCoreState_effect _ hupserted
  | journalCoIntent sessionId coreId value survived =>
      exact .settled fun _ hwritten => .adds (journalCoIntent_grows hwritten)
  | journalMarkSurvived sessionId excludeCores =>
      exact .adds (journalMarkSurvived_grows db now sessionId excludeCores)
  | bankRegimeTime contextId coreId regime offsetValue seconds =>
      exact .settled fun _ hbanked => .adds (bankRegimeTime_grows hbanked)
  | clearRegimeBanks contextId coreId =>
      exact .adds (Grows.of_tables rfl (List.Subset.refl _))
  | deleteTunerSession sessionId => exact .settled fun _ hdeleted => deleteIdle_effect _ rfl rfl hdeleted
  | deleteContextCascade contextId =>
      exact .settled fun _ hdeleted => deleteContextCascade_effect _ hdeleted
  | deleteOrphanedContexts =>
      exact .settled fun _ hdeleted => .deletes
        (Sheds.none.deleteWhere rfl (orRefuse_eq_ok.mp hdeleted) fun entry _ _ hflight =>
          absurd hflight (not_inFlight rfl))
  | recoverIncompleteRuns =>
      exact .updates (of_decide_eq_true rfl) (fun _ entry hwhich => hwhich)
        fun entry _ _ => .inl trivial
  | purgeBefore isoDate =>
      exact .settled fun _ hdeleted => .deletes
        (Sheds.none.deleteWhere rfl (orRefuse_eq_ok.mp hdeleted) fun entry _ _ _ => trivial)
  | mergeFrom faults src => exact .adds (mergeFrom_grows faults db src)

/-! ## IDs and finished runs -/

theorem Sheds.toLater {call : Call} (hshed : Sheds call db later) : Later db later := by
  induction hshed with
  | none => exact Later.refl db
  | delete hshed hroot hidle ih => exact ih.trans (Later.without _ _ _)

theorem Effect.toLater {call : Call} (heffect : Effect call db later) : Later db later := by
  cases heffect with
  | adds hgrows => exact hgrows.toLater
  | updates => exact Later.modify db _ _
  | upserts => exact Later.modify db _ _
  | deletes hshed => exact hshed.toLater

/-- Finished runs are as they were, where they are still there. -/
structure Frozen (db later : Database) : Prop where
  ids : Later db later
  rows : ∀ id row now, (id, row) ∈ (db.tables .runs).rows → hasStatus ["running"] row = false →
    (id, now) ∈ (later.tables .runs).rows → now = row

theorem Frozen.trans {last : Database} (hfirst : Frozen db later) (hsecond : Frozen later last) :
    Frozen db last where
  ids := hfirst.ids.trans hsecond.ids
  rows := fun id row now hrow hstatus hnow => by
    have hbound : id ≤ (later.tables .runs).seq :=
      ((db.tables .runs).bounded _ hrow).trans (hfirst.ids.seq .runs)
    -- the ID has not come back in between, so the row is there in the middle
    obtain ⟨held, hheld, rfl⟩ := hsecond.ids.known .runs id hbound ⟨(id, now), hnow, rfl⟩
    have hsame : held.2 = row := hfirst.rows held.1 row held.2 hrow hstatus hheld
    exact (hsecond.rows held.1 held.2 now hheld (hsame ▸ hstatus) hnow).trans hsame

theorem Frozen.of_mem (hlater : Later db later)
    (hmem : ∀ entry ∈ (later.tables .runs).rows, entry.1 ≤ (db.tables .runs).seq →
      entry ∈ (db.tables .runs).rows) : Frozen db later where
  ids := hlater
  rows := fun id row now hrow _ hnow => by
    have hbound : id ≤ (db.tables .runs).seq := (db.tables .runs).bounded (id, row) hrow
    exact (db.tables .runs).id_unique (hmem (id, now) hnow hbound) hrow

theorem Effect.frozen {call : Call} (heffect : Effect call db later) : Frozen db later := by
  have hlater := heffect.toLater
  cases heffect with
  | adds hgrows =>
      refine Frozen.of_mem hlater fun entry hentry hbound => ?_
      obtain ⟨-, new, hrows, hnew⟩ := hgrows.tables .runs
      rw [hrows] at hentry
      rcases List.mem_append.mp hentry with hold | hentry
      · exact hold
      · exact absurd hbound (Int.not_le.mpr (hnew entry hentry))
  | @updates table which sets hsets hruns hflight =>
      by_cases htable : table = .runs
      · subst htable
        refine ⟨hlater, fun id row now hrow hstatus hnow => ?_⟩
        unfold Database.updateWhere at hnow
        rw [Database.tables_modify, Table.rows_update, List.mem_map] at hnow
        obtain ⟨entry, hentry, heq⟩ := hnow
        obtain ⟨rfl, rfl⟩ := Prod.ext_iff.mp heq
        have hsame : row = entry.2 := (db.tables .runs).id_unique hrow hentry
        split
        · rename_i hwhich
          rw [hsame, hruns rfl entry hwhich] at hstatus
          cases hstatus
        · exact hsame.symm
      · refine Frozen.of_mem hlater fun entry hentry _ => ?_
        unfold Database.updateWhere at hentry
        rwa [Database.tables_modify_of_ne db _ (Ne.symm htable)] at hentry
  | upserts hkeeps =>
      refine Frozen.of_mem hlater fun entry hentry _ => ?_
      rwa [Database.tables_modify_of_ne db _ (by decide)] at hentry
  | deletes hshed => exact Frozen.of_mem hlater fun entry hentry _ => hshed.mem hentry

theorem performAll_frozen (calls : List (String × Call)) :
    ∀ db, Frozen db (performAll db calls) := by
  induction calls with
  | nil => exact fun db => Frozen.of_mem (Later.refl db) fun _ hentry _ => hentry
  | cons call rest ih =>
      exact fun db => (perform_effect db call.1 call.2).frozen.trans (ih (perform db call.1 call.2))

/-! ## Records in flight -/

theorem cascades_single {child : TableName} {reference other : String × TableName}
    (hreference : reference ∈ cascades child) (hother : other ∈ cascades child) :
    reference = other := by
  cases child <;> simp_all [cascades]

/-- What is recorded under a record: its children, and the cores in its journal. -/
structure Keeps (parent : TableName) (id : Int) (db later : Database) : Prop where
  children : ∀ child, ∀ reference ∈ cascades child, reference.2 = parent →
    ∀ entry ∈ (db.tables child).rows, entry.2 reference.1 = .integer id →
      ∃ row, (entry.1, row) ∈ (later.tables child).rows ∧ row reference.1 = .integer id
  journal : parent = .tunerSessions → ∀ row ∈ db.journal, row.sessionId = id →
    row.key ∈ later.journal.map JournalRow.key

namespace Keeps

variable {parent : TableName} {id : Int}

theorem trans {last : Database} (hfirst : Keeps parent id db later)
    (hsecond : Keeps parent id later last) : Keeps parent id db last where
  children := fun child reference hreference hparent entry hentry hid => by
    obtain ⟨row, hrow, hrowId⟩ := hfirst.children child reference hreference hparent entry hentry hid
    exact hsecond.children child reference hreference hparent (entry.1, row) hrow hrowId
  journal := fun hparent row hrow hid => by
    obtain ⟨held, hheld, hkey⟩ := List.mem_map.mp (hfirst.journal hparent row hrow hid)
    have hsession : held.sessionId = id := (congrArg Prod.fst hkey).trans hid
    exact hkey ▸ hsecond.journal hparent held hheld hsession

theorem of_grows (hgrows : Grows db later) : Keeps parent id db later where
  children := fun _ _ _ _ entry hentry hid => ⟨entry.2, hgrows.mem hentry, hid⟩
  journal := fun _ _ hrow _ => hgrows.journal (List.mem_map_of_mem hrow)

/-- Changed in place, without its reference. -/
theorem of_modify {change : Int × Row → Row}
    (hkeeps : ∀ reference ∈ cascades table, ∀ entry ∈ (db.tables table).rows,
      change entry reference.1 = entry.2 reference.1) :
    Keeps parent id db (db.modify table change) where
  children := fun child reference hreference _ entry hentry hid => by
    by_cases hchild : child = table
    · subst hchild
      rw [Database.tables_modify, Table.rows_update]
      refine ⟨change entry, List.mem_map.mpr ⟨entry, hentry, rfl⟩, ?_⟩
      rw [hkeeps reference hreference entry hentry, hid]
    · rw [Database.tables_modify_of_ne db change hchild]
      exact ⟨entry.2, hentry, hid⟩
  journal := fun _ _ hrow _ => List.mem_map_of_mem hrow

theorem of_without {gone : List Int} (hroot : cascades table = [])
    (hidle : ¬ (table = parent ∧ id ∈ gone)) : Keeps parent id db (db.without table gone) where
  children := fun child reference hreference hparent entry hentry hid => by
    refine ⟨entry.2, Database.mem_without.mpr ⟨hentry, fun hgone => ?_, ?_⟩, hid⟩
    · rw [hgone.1, hroot] at hreference
      cases hreference
    · unfold Database.falls
      rw [List.any_eq_false]
      intro other hother
      obtain rfl := cascades_single hother hreference
      simp only [hparent, refersTo, hid, Bool.and_eq_true, decide_eq_true_eq]
      exact fun hgone => hidle ⟨hgone.1.symm, hgone.2⟩
  journal := fun hparent row hrow hid => by
    refine List.mem_map_of_mem ?_
    unfold Database.without
    simp only
    split
    · rename_i htable
      refine List.mem_filter.mpr ⟨hrow, decide_eq_true fun hgone => hidle ⟨?_, hid ▸ hgone⟩⟩
      rw [htable, hparent]
    · exact hrow

end Keeps

/-- A record in flight is a run or a session; no deletion takes it along with another. -/
theorem Database.InFlight.root {parent : TableName} {id : Int} (hflight : db.InFlight parent id) :
    cascades parent = [] := by
  obtain ⟨row, -, hstatus⟩ := hflight
  cases parent with
  | runs => rfl
  | tunerSessions => rfl
  | tuningContexts => rfl
  | _ => exact absurd hstatus (not_inFlight rfl)

theorem Sheds.inFlight {call : Call} {parent : TableName} {id : Int} (hshed : Sheds call db later)
    (hflight : db.InFlight parent id) (hcall : ¬ call.EndsFlight parent id) :
    later.InFlight parent id ∧ Keeps parent id db later := by
  induction hshed with
  | none => exact ⟨hflight, .of_grows (Grows.refl db)⟩
  | @delete left table gone hshed hroot hidle ih =>
      have hkept : ¬ (table = parent ∧ id ∈ gone) := by
        rintro ⟨rfl, hgone⟩
        exact hcall (hidle id hgone hflight)
      obtain ⟨row, hrow, hstatus⟩ := ih.1
      refine ⟨⟨row, Database.mem_without.mpr ⟨hrow, fun hgone => ?_, ?_⟩, hstatus⟩,
        ih.2.trans (.of_without hroot hkept)⟩
      · exact hkept ⟨hgone.1.symm, hgone.2⟩
      · unfold Database.falls
        rw [hflight.root]
        rfl

theorem Effect.inFlight {call : Call} {parent : TableName} {id : Int}
    (heffect : Effect call db later) (hflight : db.InFlight parent id)
    (hcall : ¬ call.EndsFlight parent id) :
    later.InFlight parent id ∧ Keeps parent id db later := by
  cases heffect with
  | adds hgrows =>
      obtain ⟨row, hrow, hstatus⟩ := hflight
      exact ⟨⟨row, hgrows.mem hrow, hstatus⟩, .of_grows hgrows⟩
  | @updates table which sets hsets hruns hstays =>
      obtain ⟨row, hrow, hstatus⟩ := hflight
      refine ⟨?_, .of_modify fun reference hreference entry _ => ?_⟩
      · by_cases htable : parent = table
        · subst htable
          unfold Database.updateWhere Database.InFlight
          rw [Database.tables_modify, Table.rows_update]
          refine ⟨_, List.mem_map.mpr ⟨(id, row), hrow, rfl⟩, ?_⟩
          split
          · rename_i hwhich
            exact (hstays (id, row) hwhich hstatus).resolve_left hcall
          · exact hstatus
        · refine ⟨row, ?_, hstatus⟩
          unfold Database.updateWhere
          rwa [Database.tables_modify_of_ne db _ htable]
      · split
        · refine setColumns_of_not_mem fun hmem => ?_
          obtain ⟨set, hset, hname⟩ := List.mem_map.mp hmem
          have hdeclared := (cascades_references table (mem_allTables table) reference hreference).1
          exact (hsets set hset).2.2.1 (hname ▸ List.mem_map_of_mem hdeclared)
        · rfl
  | upserts hkeeps =>
      obtain ⟨row, hrow, hstatus⟩ := hflight
      refine ⟨⟨row, ?_, hstatus⟩, .of_modify fun reference hreference entry _ => ?_⟩
      · have hne : parent ≠ .tunerCoreStates := by
          rintro rfl
          exact not_inFlight rfl hstatus
        rwa [Database.tables_modify_of_ne db _ hne]
      · obtain rfl := List.mem_singleton.mp hreference
        exact hkeeps entry
  | deletes hshed => exact hshed.inFlight hflight hcall

/-- **Nothing in flight is lost.**  A run or session in flight stays in flight through every series
of calls, with all that was recorded under it, where none of the calls ends its flight: finishes it,
recovers it as crashed, gives its session a final status, or purges runs. -/
theorem performAll_inFlight {parent : TableName} {id : Int} {calls : List (String × Call)}
    (hflight : db.InFlight parent id) (hcalls : ∀ call ∈ calls, ¬ call.2.EndsFlight parent id) :
    (performAll db calls).InFlight parent id ∧ Keeps parent id db (performAll db calls) := by
  induction calls generalizing db with
  | nil => exact ⟨hflight, .of_grows (Grows.refl db)⟩
  | cons call rest ih =>
      rw [List.forall_mem_cons] at hcalls
      obtain ⟨hstill, hkept⟩ := (perform_effect db call.1 call.2).inFlight hflight hcalls.1
      obtain ⟨hlast, hrest⟩ := ih hstill hcalls.2
      exact ⟨hlast, hkept.trans hrest⟩

/-- A session in flight in the sample's context, with a core in its journal. -/
def hunting : Database where
  tables := fun table =>
    if table = .tunerSessions then
      singleTable fun column =>
        if column = "status" then .text "hunting" else .integer 1
    else (singleTable fun _ => .null).filter fun _ => false
  journal := [{ sessionId := 1, coreId := 0, value := -20, survived := 0,
                updatedAt := "2026-07-20T10:00:00+00:00" }]
  banks := []

/-- Deleted, and its context with it, the session would be lost; both are refused. -/
theorem performAll_inFlight_hunting : (performAll hunting
      [("2026-07-21", .deleteTunerSession 1), ("2026-07-21", .deleteContextCascade 1),
        ("2026-07-21", .journalCoIntent 1 0 (-18) false),
        ("2026-07-21", .updateTunerSessionStatus 1 "paused")]).InFlight .tunerSessions 1 ∧
    Keeps .tunerSessions 1 hunting (performAll hunting
      [("2026-07-21", .deleteTunerSession 1), ("2026-07-21", .deleteContextCascade 1),
        ("2026-07-21", .journalCoIntent 1 0 (-18) false),
        ("2026-07-21", .updateTunerSessionStatus 1 "paused")]) := by
  refine performAll_inFlight ⟨_, List.mem_singleton.mpr rfl, by decide⟩ ?_
  simp [Call.EndsFlight, resumableStatuses]

/-! ## What a deleted context takes along -/

theorem refersTo_eq_true {row : Row} {column : String} {ids : List Int} :
    refersTo row column ids = true ↔ ∃ id ∈ ids, row column = .integer id := by
  unfold refersTo
  split
  · rename_i id hid
    simp [hid]
  · rename_i hother
    constructor
    · intro h
      cases h
    · rintro ⟨id, -, hid⟩
      exact absurd hid (hother id)

/-- A reference that is left behind is not one that cascades. -/
theorem dangles_iff {gone : List Int} :
    (db.without table gone).Dangles table gone ↔
      ∃ child, ∃ entry ∈ ((db.without table gone).tables child).rows,
        ∃ reference ∈ (ddl child).references, reference ∉ cascades child ∧
          reference.2 = table ∧ refersTo entry.2 reference.1 gone = true := by
  constructor
  · rintro ⟨child, -, entry, hentry, reference, hreference, hparent, hrefers⟩
    refine ⟨child, entry, hentry, reference, hreference, fun hcascade => ?_, hparent, hrefers⟩
    have hfalls := List.any_eq_false.mp (Database.mem_without.mp hentry).2.2 reference hcascade
    simp [hparent, hrefers] at hfalls
  · rintro ⟨child, entry, hentry, reference, hreference, -, hparent, hrefers⟩
    exact ⟨child, mem_allTables child, entry, hentry, reference, hreference, hparent, hrefers⟩

/-- The references that do not cascade. -/
theorem references_plain : ∀ child ∈ allTables, ∀ reference ∈ (ddl child).references,
    reference ∉ cascades child →
      child = .tunerTestLog ∧ reference = ("run_id", .runs) ∨
        (child = .runs ∨ child = .tunerSessions) ∧ reference = ("context_id", .tuningContexts) := by
  decide

/-- A deleted run is missed by the test log alone. -/
theorem dangles_runs {gone : List Int} :
    (db.without .runs gone).Dangles .runs gone ↔
      ∃ entry ∈ (db.tables .tunerTestLog).rows, refersTo entry.2 "run_id" gone = true := by
  rw [dangles_iff]
  constructor
  · rintro ⟨child, entry, hentry, reference, hreference, hplain, hparent, hrefers⟩
    rcases references_plain child (mem_allTables child) reference hreference hplain with
      ⟨rfl, rfl⟩ | ⟨-, rfl⟩
    · exact ⟨entry, (Database.mem_without.mp hentry).1, hrefers⟩
    · cases hparent
  · rintro ⟨entry, hentry, hrefers⟩
    refine ⟨.tunerTestLog, entry, Database.mem_without.mpr ⟨hentry, fun h => ?_, rfl⟩,
      ("run_id", .runs), ?_, by decide, rfl, hrefers⟩
    · cases h.1
    · simp [ddl, tunerTestLogDdl]

theorem dangles_tunerSessions {gone : List Int} :
    ¬ (db.without .tunerSessions gone).Dangles .tunerSessions gone := by
  rw [dangles_iff]
  rintro ⟨child, entry, hentry, reference, hreference, hplain, hparent, hrefers⟩
  rcases references_plain child (mem_allTables child) reference hreference hplain with
    ⟨rfl, rfl⟩ | ⟨-, rfl⟩
  · cases hparent
  · cases hparent

/-- A deleted context is missed by its runs and sessions. -/
theorem dangles_tuningContexts {gone : List Int}
    (hdangles : (db.without .tuningContexts gone).Dangles .tuningContexts gone) :
    ∃ id ∈ gone, isUsed db id = true := by
  obtain ⟨child, entry, hentry, reference, hreference, hplain, hparent, hrefers⟩ :=
    dangles_iff.mp hdangles
  have hold := (Database.mem_without.mp hentry).1
  obtain ⟨id, hid, hcolumn⟩ := refersTo_eq_true.mp hrefers
  refine ⟨id, hid, ?_⟩
  unfold isUsed
  rw [Bool.or_eq_true, List.any_eq_true, List.any_eq_true]
  rcases references_plain child (mem_allTables child) reference hreference hplain with
    ⟨rfl, rfl⟩ | ⟨rfl | rfl, rfl⟩
  · cases hparent
  · exact .inl ⟨entry, hold, decide_eq_true hcolumn⟩
  · exact .inr ⟨entry, hold, decide_eq_true hcolumn⟩

theorem deleteWhere_runs {which : Int × Row → Bool}
    (hunlogged : ∀ entry ∈ (db.tables .tunerTestLog).rows,
      refersTo entry.2 "run_id" (db.idsWhere .runs which) = false) :
    db.deleteWhere .runs which = .ok (db.without .runs (db.idsWhere .runs which)) := by
  refine deleteWhere_eq_ok.mpr ⟨fun hdangles => ?_, rfl⟩
  obtain ⟨entry, hentry, hrefers⟩ := dangles_runs.mp hdangles
  rw [hunlogged entry hentry] at hrefers
  cases hrefers

theorem deleteWhere_tunerSessions (db : Database) (which : Int × Row → Bool) :
    db.deleteWhere .tunerSessions which =
      .ok (db.without .tunerSessions (db.idsWhere .tunerSessions which)) :=
  deleteWhere_eq_ok.mpr ⟨dangles_tunerSessions, rfl⟩

theorem deleteWhere_tuningContexts {which : Int × Row → Bool}
    (hunused : ∀ id ∈ db.idsWhere .tuningContexts which, isUsed db id = false) :
    db.deleteWhere .tuningContexts which =
      .ok (db.without .tuningContexts (db.idsWhere .tuningContexts which)) := by
  refine deleteWhere_eq_ok.mpr ⟨fun hdangles => ?_, rfl⟩
  obtain ⟨id, hid, hused⟩ := dangles_tuningContexts hdangles
  rw [hunused id hid] at hused
  cases hused

/-- A record of the context, or one that goes with a run or session of it. -/
def belongsTo (db : Database) (contextId : Int) (table : TableName) (entry : Int × Row) : Bool :=
  match table with
  | .tuningContexts => decide (entry.1 = contextId)
  | .runs | .tunerSessions => ofContext contextId entry
  | child => (cascades child).any fun reference =>
      refersTo entry.2 reference.1 (db.idsWhere reference.2 (ofContext contextId))

/-- The database without a context and what belongs to it. -/
def Database.withoutContext (db : Database) (contextId : Int) : Database where
  tables := fun table => (db.tables table).filter fun entry => !belongsTo db contextId table entry
  journal := db.journal.filter fun row =>
    decide (row.sessionId ∉ db.idsWhere .tunerSessions (ofContext contextId))
  banks := db.banks.filter fun bank => decide (bank.contextId ≠ contextId)

theorem mem_idsWhere_of_mem {which : Int × Row → Bool} {entry : Int × Row}
    (hentry : entry ∈ (db.tables table).rows) :
    entry.1 ∈ db.idsWhere table which ↔ which entry = true := by
  rw [mem_idsWhere]
  constructor
  · rintro ⟨row, hrow, hwhich⟩
    have hsame : row = entry.2 := (db.tables table).id_unique hrow hentry
    rwa [hsame] at hwhich
  · exact fun hwhich => ⟨entry.2, hentry, hwhich⟩

theorem tables_without {gone : List Int} {child : TableName} (hchild : child ≠ table)
    (hfalls : ∀ entry ∈ (db.tables child).rows, Database.falls table gone child entry.2 = false) :
    (db.without table gone).tables child = db.tables child := by
  refine Table.ext_rows ?_ rfl
  refine List.filter_eq_self.mpr fun entry hentry => ?_
  simp [hchild, hfalls entry hentry]

theorem idsWhere_without {gone : List Int} {child : TableName} (hchild : child ≠ table)
    (hroot : cascades child = []) (which : Int × Row → Bool) :
    (db.without table gone).idsWhere child which = db.idsWhere child which := by
  unfold Database.idsWhere
  rw [tables_without hchild fun entry _ => by unfold Database.falls; rw [hroot]; rfl]

/-- The three deletions of a context. -/
theorem withoutContext_eq (hvalid : db.Valid) (contextId : Int) :
    ((db.without .runs (db.idsWhere .runs (ofContext contextId))).without .tunerSessions
      (db.idsWhere .tunerSessions (ofContext contextId))).without .tuningContexts
      (db.idsWhere .tuningContexts fun entry => decide (entry.1 = contextId)) =
    db.withoutContext contextId := by
  have htables : ∀ child, ((((db.without .runs (db.idsWhere .runs (ofContext contextId))).without
      .tunerSessions (db.idsWhere .tunerSessions (ofContext contextId))).without .tuningContexts
      (db.idsWhere .tuningContexts fun entry => decide (entry.1 = contextId))).tables child) =
      (db.withoutContext contextId).tables child := fun child => by
    refine Table.ext_rows ?_ rfl
    unfold Database.without Database.withoutContext
    simp only [Table.rows_filter, List.filter_filter]
    refine List.filter_congr fun entry hentry => ?_
    have hmember : ∀ which : Int × Row → Bool,
        decide (entry.1 ∈ db.idsWhere child which) = which entry := fun which => by
      rw [Bool.eq_iff_iff, decide_eq_true_iff]
      exact mem_idsWhere_of_mem hentry
    cases child <;> simp [Database.falls, cascades, belongsTo, hmember]
  have hbanks : (db.banks.filter fun bank => decide (bank.contextId ∉
      db.idsWhere .tuningContexts fun entry => decide (entry.1 = contextId))) =
      db.banks.filter fun bank => decide (bank.contextId ≠ contextId) := by
    refine List.filter_congr fun bank hbank => ?_
    obtain ⟨entry, hentry, hid⟩ := hvalid.banksResolve bank hbank
    rw [← hid, decide_eq_decide, mem_idsWhere_of_mem hentry, decide_eq_true_iff]
  have hall := funext htables
  unfold Database.withoutContext at hall ⊢
  unfold Database.without at hall ⊢
  simp only [reduceCtorEq, if_true, if_false] at hall ⊢
  rw [hall, hbanks]

/-- After its runs and sessions are deleted, nothing uses a context. -/
theorem isUsed_without_children (db : Database) (contextId : Int) :
    isUsed ((db.without .runs (db.idsWhere .runs (ofContext contextId))).without .tunerSessions
      (db.idsWhere .tunerSessions (ofContext contextId))) contextId = false := by
  unfold isUsed
  rw [Bool.or_eq_false_iff, List.any_eq_false, List.any_eq_false]
  refine ⟨fun entry hentry hcontext => ?_, fun entry hentry hcontext => ?_⟩
  · obtain ⟨hold, hkept, -⟩ := Database.mem_without.mp (Database.mem_without.mp hentry).1
    exact hkept ⟨rfl, (mem_idsWhere_of_mem hold).mpr hcontext⟩
  · obtain ⟨hold, hkept, -⟩ := Database.mem_without.mp hentry
    have hfirst := (Database.mem_without.mp hold).1
    exact hkept ⟨rfl, (mem_idsWhere_of_mem hfirst).mpr hcontext⟩

/-- **A deleted context takes exactly its own records along.**  The deletion is refused where a run
or a session of the context is in flight, or where the test log of any session still refers to one
of its runs; otherwise every record of the context is gone, and every other is left as it was. -/
theorem deleteContextCascade_eq_ok (hvalid : db.Valid) (contextId : Int) :
    deleteContextCascade db contextId = .ok later ↔
      (∀ parent ∈ [TableName.runs, .tunerSessions], ∀ entry ∈ (db.tables parent).rows,
        ofContext contextId entry = true → hasStatus (flight parent) entry.2 = false) ∧
      (∀ entry ∈ (db.tables .tunerTestLog).rows,
        refersTo entry.2 "run_id" (db.idsWhere .runs (ofContext contextId)) = false) ∧
      later = db.withoutContext contextId := by
  have hidle : ∀ parent, (db.tables parent).rows.find? (fun entry =>
      ofContext contextId entry && hasStatus (flight parent) entry.2) = none ↔
      ∀ entry ∈ (db.tables parent).rows,
        ofContext contextId entry = true → hasStatus (flight parent) entry.2 = false := by
    simp [List.find?_eq_none]
  simp only [List.forall_mem_cons, List.not_mem_nil, false_implies, implies_true, and_true]
  rw [← hidle .runs, ← hidle .tunerSessions]
  unfold deleteContextCascade
  simp only [flight]
  split
  · rename_i entry hentry
    simp [hentry]
  rename_i hruns
  split
  · rename_i entry hentry
    simp [hentry]
  rename_i hsessions
  simp only [hruns, hsessions, true_and, orRefuse_eq_ok]
  constructor
  · intro hdeleted
    obtain ⟨withoutRuns, hdeletedRuns, hdeleted⟩ := bind_eq_ok hdeleted
    obtain ⟨withoutSessions, hdeletedSessions, hdeleted⟩ := bind_eq_ok hdeleted
    obtain ⟨hdangles, rfl⟩ := deleteWhere_eq_ok.mp hdeletedRuns
    obtain ⟨-, rfl⟩ := deleteWhere_eq_ok.mp hdeletedSessions
    obtain ⟨-, rfl⟩ := deleteWhere_eq_ok.mp hdeleted
    refine ⟨fun entry hentry => ?_, ?_⟩
    · by_contra hrefers
      exact hdangles (dangles_runs.mpr ⟨entry, hentry, by simpa using hrefers⟩)
    · rw [← withoutContext_eq hvalid, idsWhere_without (by decide) rfl,
        idsWhere_without (by decide) rfl, idsWhere_without (by decide) rfl]
  · rintro ⟨hunlogged, rfl⟩
    simp only [deleteWhere_runs hunlogged, deleteWhere_tunerSessions, bind, Except.bind]
    rw [idsWhere_without (by decide) rfl, deleteWhere_tuningContexts, idsWhere_without (by decide) rfl,
      idsWhere_without (by decide) rfl, withoutContext_eq hvalid]
    intro id hid
    obtain ⟨row, -, hcontext⟩ := mem_idsWhere.mp hid
    obtain rfl := of_decide_eq_true hcontext
    exact isUsed_without_children db id

theorem deleteContextCascade_eq_ok_sample :
    deleteContextCascade (sampleDatabase 600) 1 = .ok ((sampleDatabase 600).withoutContext 1) := by
  refine (deleteContextCascade_eq_ok (sampleDatabase_valid 600) 1).mpr ⟨?_, ?_, rfl⟩
  · decide
  · decide

end History
end CoreCycler
