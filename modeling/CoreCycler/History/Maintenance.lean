import CoreCycler.History.Merge

/-!
# Writing to the history database

The statements that the application sends to the database, besides a merge.  A record is inserted
with all its columns; a run is finished once; sessions, core states, the CO journal and the banks
are updated in place; and records are deleted with everything that belongs to them, where they are
not in flight.  A call that raises leaves the database as it was.
-/

namespace CoreCycler
namespace History

open Library.Tables

/-- Why a call raises. -/
inductive Refusal where
  | sql (error : SqlError)
  /-- `InFlightRecord`. -/
  | inFlight (message : String)
  /-- A core state with a value that cannot be one. -/
  | insane (column : String)
deriving DecidableEq, Repr

/-- The text of `InFlightRecord`. -/
def inFlightMessage (table : TableName) (id : Int) (status : String) : String :=
  match table with
  | .runs => s!"Cannot delete run {id} with status {status}"
  | _ => s!"Cannot delete tuner session {id} with status {status}"

/-! ## Statements -/

def allTables : List TableName :=
  [.tuningContexts, .runs, .coreResults, .events, .telemetrySamples, .tunerSessions,
    .tunerCoreStates, .tunerTestLog, .tunerEvents]

theorem mem_allTables (table : TableName) : table ∈ allTables := by
  cases table <;> decide

/-- The references whose rows go with the row they refer to (`ON DELETE CASCADE`). -/
def cascades : TableName → List (String × TableName)
  | .coreResults | .events | .telemetrySamples => [("run_id", .runs)]
  | .tunerCoreStates | .tunerTestLog | .tunerEvents => [("session_id", .tunerSessions)]
  | _ => []

/-- A cascade follows a declared reference, and ends with the child: nothing refers to it. -/
theorem cascades_references : ∀ table ∈ allTables, ∀ reference ∈ cascades table,
    reference ∈ (ddl table).references ∧
      ∀ other ∈ allTables, ∀ onward ∈ (ddl other).references, onward.2 ≠ table := by
  decide

/-- A column refers to one of the rows. -/
def refersTo (row : Row) (column : String) (ids : List Int) : Bool :=
  match row column with
  | .integer id => decide (id ∈ ids)
  | _ => false

/-- The columns of an `UPDATE`, the others as they are. -/
def setColumns (row : Row) (sets : List (String × Value)) : Row := fun column =>
  match sets.find? fun set => decide (set.1 = column) with
  | some set => set.2
  | none => row column

namespace Database

/-- Change the rows of a table. -/
def modify (db : Database) (table : TableName) (change : Int × Row → Row) : Database :=
  { db with tables := Function.update db.tables table ((db.tables table).update change) }

/-- `UPDATE table SET ... WHERE ...`. -/
def updateWhere (db : Database) (table : TableName) (which : Int × Row → Bool)
    (sets : List (String × Value)) : Database :=
  db.modify table fun entry => if which entry then setColumns entry.2 sets else entry.2

/-- The IDs of the rows that a condition selects. -/
def idsWhere (db : Database) (table : TableName) (which : Int × Row → Bool) : List Int :=
  ((db.tables table).rows.filter which).map Prod.fst

/-- A row goes with a deleted row of another table. -/
def falls (table : TableName) (gone : List Int) (child : TableName) (row : Row) : Bool :=
  (cascades child).any fun reference =>
    decide (reference.2 = table) && refersTo row reference.1 gone

/-- What a deletion leaves. -/
def without (db : Database) (table : TableName) (gone : List Int) : Database where
  tables := fun child =>
    (db.tables child).filter fun entry =>
      !(decide (child = table) && decide (entry.1 ∈ gone)) && !falls table gone child entry.2
  journal :=
    if table = .tunerSessions then
      db.journal.filter fun row => decide (row.sessionId ∉ gone)
    else db.journal
  banks :=
    if table = .tuningContexts then
      db.banks.filter fun bank => decide (bank.contextId ∉ gone)
    else db.banks

/-- Some row that is left still refers to a deleted one. -/
def Dangles (left : Database) (table : TableName) (gone : List Int) : Prop :=
  ∃ child ∈ allTables, ∃ entry ∈ (left.tables child).rows, ∃ reference ∈ (ddl child).references,
    reference.2 = table ∧ refersTo entry.2 reference.1 gone = true

instance (left : Database) (table : TableName) (gone : List Int) :
    Decidable (left.Dangles table gone) := by
  unfold Dangles
  infer_instance

/-- `DELETE FROM table WHERE ...`. -/
def deleteWhere (db : Database) (table : TableName) (which : Int × Row → Bool) :
    Except SqlError Database :=
  let gone := db.idsWhere table which
  if (db.without table gone).Dangles table gone then .error .foreignKey
  else .ok (db.without table gone)

end Database

/-- Give a record its time, where it has none. -/
def stamped (column now : String) (record : Row) : Row :=
  if record column = .text "" then setColumns record [(column, .text now)] else record

/-- Insert a record under the next ID. -/
def insertRecord (db : Database) (table : TableName) (record : Row) :
    Except Refusal (Int × Database) :=
  match db.insert table (project table record) with
  | .ok inserted => .ok ((inserted.tables table).seq, inserted)
  | .error error => .error (.sql error)

/-! ## Runs and what they record -/

def createRun (db : Database) (now : String) (run : Row) : Except Refusal (Int × Database) :=
  insertRecord db .runs (stamped "started_at" now run)

def insertCoreResult (db : Database) (now : String) (rec : Row) :
    Except Refusal (Int × Database) :=
  insertRecord db .coreResults (stamped "started_at" now rec)

def insertEvent (db : Database) (now : String) (event : Row) : Except Refusal (Int × Database) :=
  insertRecord db .events (stamped "timestamp" now event)

/-- Every sample is a transaction of its own: those before one that raises are stored. -/
def insertTelemetryBatch (db : Database) (now : String) : List Row → Option Refusal × Database
  | [] => (none, db)
  | sample :: rest =>
      match insertRecord db .telemetrySamples (stamped "timestamp" now sample) with
      | .ok (_, inserted) => insertTelemetryBatch inserted now rest
      | .error refusal => (some refusal, db)

/-- How a run ended. -/
structure RunSummary where
  status : String := "completed"
  totalCores : Int := 0
  coresPassed : Int := 0
  coresFailed : Int := 0
  totalSeconds : ℚ := 0

/-- Finish a run that is still running; whether it was. -/
def finishRun (db : Database) (now : String) (runId : Int) (summary : RunSummary) :
    Bool × Database :=
  let which := fun entry : Int × Row =>
    decide (entry.1 = runId) && decide (entry.2 "status" = .text "running")
  (decide ((db.idsWhere .runs which).length = 1),
    db.updateWhere .runs which
      [("finished_at", .text now), ("status", .text summary.status),
        ("total_cores", .integer summary.totalCores),
        ("cores_passed", .integer summary.coresPassed),
        ("cores_failed", .integer summary.coresFailed),
        ("total_seconds", .real summary.totalSeconds)])

/-- The columns of a core result that are given. -/
structure ResultUpdate where
  finishedAt : Option String := none
  passed : Option Bool := none
  errorMessage : Option String := none
  errorType : Option String := none
  elapsedSeconds : Option ℚ := none
  iterationsCompleted : Option Int := none
  peakFreqMhz : Option ℚ := none
  maxTempC : Option ℚ := none
  minVcoreV : Option ℚ := none
  maxVcoreV : Option ℚ := none

def ResultUpdate.sets (update : ResultUpdate) : List (String × Value) :=
  [update.finishedAt.map fun at' => ("finished_at", Value.text at'),
    update.passed.map fun passed => ("passed", .integer (if passed then 1 else 0)),
    update.errorMessage.map fun text => ("error_message", .text text),
    update.errorType.map fun text => ("error_type", .text text),
    update.elapsedSeconds.map fun seconds => ("elapsed_seconds", .real seconds),
    update.iterationsCompleted.map fun count => ("iterations_completed", .integer count),
    update.peakFreqMhz.map fun value => ("peak_freq_mhz", .real value),
    update.maxTempC.map fun value => ("max_temp_c", .real value),
    update.minVcoreV.map fun value => ("min_vcore_v", .real value),
    update.maxVcoreV.map fun value => ("max_vcore_v", .real value)].filterMap id

def updateCoreResult (db : Database) (resultId : Int) (update : ResultUpdate) : Database :=
  db.updateWhere .coreResults (fun entry => decide (entry.1 = resultId)) update.sets

/-! ## Contexts -/

/-- The ID of the context, inserted where it is not there yet. -/
def getOrCreateContext (db : Database) (now : String) (ctx : Row) :
    Except Refusal (Int × Database) :=
  let record := stamped "created_at" now ctx
  match db.insertOrIgnore .tuningContexts (project .tuningContexts record) with
  | .error error => .error (.sql error)
  | .ok (some id, inserted) => .ok (id, inserted)
  | .ok (none, _) =>
      match (db.tables .tuningContexts).rows.find?
          fun entry => decide (SameKey contextKey entry.2 record) with
      | some existing => .ok (existing.1, db)
      | none => .error (.sql .missing)

def updateContextNotes (db : Database) (contextId : Int) (notes : String) : Database :=
  db.updateWhere .tuningContexts (fun entry => decide (entry.1 = contextId))
    [("notes", .text notes)]

/-! ## Tuner sessions -/

def TUNER_CONTRACT_VERSION : Int := 16

/-- `RESUMABLE_STATUSES`. -/
def resumableStatuses : List String := ["running", "paused", "validating", "hunting"]

/-- A new session; the columns that the insertion does not name have their defaults. -/
def sessionRow (now configJson biosVersion cpuModel appVersion : String)
    (contextId : Option Int) : Row := fun column =>
  if column ∈ ["created_at", "updated_at"] then .text now
  else if column = "status" then .text "running"
  else if column = "bios_version" then .text biosVersion
  else if column = "cpu_model" then .text cpuModel
  else if column = "config_json" then .text configJson
  else if column = "context_id" then contextId.elim .null .integer
  else if column = "app_version" then .text appVersion
  else if column = "contract_version" then .integer TUNER_CONTRACT_VERSION
  else if column = "validation_requeue" then .text "[]"
  else if column ∈ ["notes", "boot_id", "hunt_state"] then .text ""
  else .integer 0

def createTunerSession (db : Database) (now configJson biosVersion cpuModel appVersion : String)
    (contextId : Option Int) : Except Refusal (Int × Database) :=
  insertRecord db .tunerSessions
    (sessionRow now configJson biosVersion cpuModel appVersion contextId)

/-- `UPDATE tuner_sessions SET ... WHERE id=?`. -/
def setSession (db : Database) (sessionId : Int) (sets : List (String × Value)) : Database :=
  db.updateWhere .tunerSessions (fun entry => decide (entry.1 = sessionId)) sets

def updateTunerSessionStatus (db : Database) (now : String) (sessionId : Int) (status : String) :
    Database :=
  setSession db sessionId [("status", .text status), ("updated_at", .text now)]

def setUnattributedCrashes (db : Database) (now : String) (sessionId value : Int) : Database :=
  setSession db sessionId [("unattributed_crashes", .integer value), ("updated_at", .text now)]

def setValidationPosition (db : Database) (now : String) (sessionId stage index half : Int)
    (dirty : Bool) (requeueJson : String) : Database :=
  setSession db sessionId
    [("validation_stage", .integer stage), ("validation_index", .integer index),
      ("validation_half", .integer half), ("validation_dirty", .integer (if dirty then 1 else 0)),
      ("validation_requeue", .text requeueJson), ("updated_at", .text now)]

def setEndurancePosition (db : Database) (now : String) (sessionId round workload index : Int) :
    Database :=
  setSession db sessionId
    [("endurance_round", .integer round), ("endurance_workload", .integer workload),
      ("endurance_index", .integer index), ("updated_at", .text now)]

def setSessionBoot (db : Database) (sessionId : Int) (bootId : String) : Database :=
  setSession db sessionId [("boot_id", .text bootId)]

def updateTunerSessionConfig (db : Database) (now : String) (sessionId : Int)
    (configJson : String) : Database :=
  setSession db sessionId [("config_json", .text configJson), ("updated_at", .text now)]

def setHuntState (db : Database) (sessionId : Int) (blob : String) : Database :=
  setSession db sessionId [("hunt_state", .text blob)]

def setResumeCrashStreak (db : Database) (now : String) (sessionId value : Int) : Database :=
  setSession db sessionId [("resume_crash_streak", .integer value), ("updated_at", .text now)]

def insertTunerEvent (db : Database) (now : String) (sessionId : Int)
    (message bootId severity : String) : Except Refusal (Int × Database) :=
  insertRecord db .tunerEvents fun column =>
    if column = "session_id" then .integer sessionId
    else if column = "timestamp" then .text now
    else if column = "boot_id" then .text bootId
    else if column = "severity" then .text severity
    else .text message

/-- A slot's verdict, with the session, the time and everything else of it as a record. -/
def insertTunerTestLog (db : Database) (now : String) (sessionId : Int) (entry : Row) :
    Except Refusal (Int × Database) :=
  insertRecord db .tunerTestLog
    (setColumns entry [("session_id", .integer sessionId), ("tested_at", .text now)])

/-! ## Core states -/

/-- `_CO_SANE_RANGE`. -/
def coSaneRange : Int × Int := (-100, 100)

def offsetColumns : List String :=
  ["current_offset", "best_offset", "proven_offset", "coarse_fail_offset", "baseline_offset",
    "backoff_fail_bound", "backoff_pass_bound"]

def counterColumns : List String :=
  ["confirm_attempts", "consecutive_backoff_fails", "crash_count", "crash_cooldown",
    "thermal_aborts", "battery_index", "anneal_strikes"]

/-- A value that an offset can have. -/
def saneOffset : Value → Bool
  | .integer value => decide (coSaneRange.1 ≤ value) && decide (value ≤ coSaneRange.2)
  | .real value => decide ((coSaneRange.1 : ℚ) ≤ value) && decide (value ≤ coSaneRange.2)
  | _ => true

/-- A value that a count can have. -/
def saneCount : Value → Bool
  | .integer value => decide (0 ≤ value)
  | .real value => decide (0 ≤ value)
  | _ => true

/-- The first column of a core state whose value cannot be one. -/
def insaneColumn (state : Row) : Option String :=
  ((offsetColumns.find? fun column => !saneOffset (state column)).or
    (counterColumns.find? fun column => !saneCount (state column))).or
    (["cumulative_test_time"].find? fun column => !saneCount (state column))

/-- `INSERT INTO tuner_core_states ... ON CONFLICT DO UPDATE`: an update sets every column. -/
def upsertTunerCoreState (db : Database) (now : String) (sessionId : Int) (state : Row) :
    Except Refusal Database :=
  match insaneColumn state with
  | some column => .error (.insane column)
  | none =>
      let row := project .tunerCoreStates
        (setColumns state [("session_id", .integer sessionId), ("updated_at", .text now)])
      let same := fun entry : Int × Row =>
        decide (SameKey ["session_id", "core_id"] entry.2 row)
      if ∃ column ∈ tunerCoreStatesDdl.columns, column ∉ tunerCoreStatesDdl.nullable ∧
          row column = .null then
        .error (.sql .notNull)
      else if (db.tables .tunerCoreStates).rows.any same then
        .ok (db.modify .tunerCoreStates fun entry => if same entry then row else entry.2)
      else
        match db.insert .tunerCoreStates row with
        | .ok inserted => .ok inserted
        | .error error => .error (.sql error)

/-! ## The CO journal -/

/-- Record the value about to be made resident. -/
def journalCoIntent (db : Database) (now : String) (sessionId coreId value : Int)
    (survived : Bool) : Except Refusal Database :=
  let row : JournalRow :=
    { sessionId := sessionId, coreId := coreId, value := value,
      survived := if survived then 1 else 0, updatedAt := now }
  if ∃ held ∈ db.journal, held.key = row.key then
    .ok { db with journal := db.journal.map fun held => if held.key = row.key then row else held }
  else if ¬ db.HasId .tunerSessions sessionId then .error (.sql .foreignKey)
  else .ok { db with journal := db.journal ++ [row] }

/-- Mark the resident values of a session as survived, besides those of some cores. -/
def journalMarkSurvived (db : Database) (now : String) (sessionId : Int)
    (excludeCores : List Int) : Database :=
  { db with
    journal := db.journal.map fun row =>
      if row.sessionId = sessionId ∧ row.coreId ∉ excludeCores then
        { row with survived := 1, updatedAt := now }
      else row }

/-! ## The regime banks -/

/-- Credit clean time to a bank. -/
def bankRegimeTime (db : Database) (now : String) (contextId coreId : Int) (regime : String)
    (offsetValue : Int) (seconds : ℚ) : Except Refusal Database :=
  let bank : BankRow :=
    { contextId := contextId, coreId := coreId, regime := regime, offsetValue := offsetValue,
      cleanSeconds := seconds, updatedAt := now }
  if ∃ held ∈ db.banks, held.key = bank.key then
    .ok { db with
      banks := db.banks.map fun held =>
        if held.key = bank.key then
          { held with cleanSeconds := held.cleanSeconds + seconds, updatedAt := now }
        else held }
  else if ¬ db.HasId .tuningContexts contextId then .error (.sql .foreignKey)
  else .ok { db with banks := db.banks ++ [bank] }

def clearRegimeBanks (db : Database) (contextId coreId : Int) : Database :=
  { db with
    banks := db.banks.filter fun bank =>
      !(decide (bank.contextId = contextId) && decide (bank.coreId = coreId)) }

/-! ## Deleting -/

/-- The record is in one of the states. -/
def hasStatus (statuses : List String) (row : Row) : Bool :=
  match row "status" with
  | .text status => decide (status ∈ statuses)
  | _ => false

/-- What a row's status says. -/
def statusText (row : Row) : String :=
  match row "status" with
  | .text status => status
  | _ => ""

/-- A statement within a transaction. -/
def orRefuse : Except SqlError Database → Except Refusal Database
  | .ok db => .ok db
  | .error error => .error (.sql error)

/-- Delete a record of a table, unless it is in flight. -/
def deleteIdle (db : Database) (table : TableName) (statuses : List String) (id : Int) :
    Except Refusal Database :=
  match (db.tables table).rows.find? fun entry =>
      decide (entry.1 = id) && hasStatus statuses entry.2 with
  | some entry => .error (.inFlight (inFlightMessage table id (statusText entry.2)))
  | none => orRefuse (db.deleteWhere table fun entry => decide (entry.1 = id))

def deleteRun (db : Database) (runId : Int) : Except Refusal Database :=
  deleteIdle db .runs ["running"] runId

def deleteTunerSession (db : Database) (sessionId : Int) : Except Refusal Database :=
  deleteIdle db .tunerSessions resumableStatuses sessionId

/-- The rows of a context. -/
def ofContext (contextId : Int) (entry : Int × Row) : Bool :=
  decide (entry.2 "context_id" = .integer contextId)

/-- Delete a context with its runs and sessions, unless one of them is in flight. -/
def deleteContextCascade (db : Database) (contextId : Int) : Except Refusal Database :=
  match (db.tables .runs).rows.find? fun entry =>
      ofContext contextId entry && hasStatus ["running"] entry.2 with
  | some entry => .error (.inFlight (inFlightMessage .runs entry.1 (statusText entry.2)))
  | none =>
      match (db.tables .tunerSessions).rows.find? fun entry =>
          ofContext contextId entry && hasStatus resumableStatuses entry.2 with
      | some entry =>
          .error (.inFlight (inFlightMessage .tunerSessions entry.1 (statusText entry.2)))
      | none => orRefuse (do
          let withoutRuns ← db.deleteWhere .runs (ofContext contextId)
          let withoutSessions ← withoutRuns.deleteWhere .tunerSessions (ofContext contextId)
          withoutSessions.deleteWhere .tuningContexts fun entry => decide (entry.1 = contextId))

/-- A run or session of the context is there. -/
def isUsed (db : Database) (contextId : Int) : Bool :=
  (db.tables .runs).rows.any (ofContext contextId) ||
    (db.tables .tunerSessions).rows.any (ofContext contextId)

/-- Delete the contexts without runs and sessions. -/
def deleteOrphanedContexts (db : Database) : Except Refusal Database :=
  orRefuse (db.deleteWhere .tuningContexts fun entry => !isUsed db entry.1)

/-- Mark the runs that are still running as crashed. -/
def recoverIncompleteRuns (db : Database) (now : String) : List (Int × Value) × Database :=
  (((db.tables .runs).rows.filter fun entry => hasStatus ["running"] entry.2).map
      fun entry => (entry.1, entry.2 "started_at"),
    db.updateWhere .runs (fun entry => hasStatus ["running"] entry.2)
      [("status", .text "crashed"), ("finished_at", .text now)])

/-- A run started before the date. -/
def startedBefore (isoDate : String) (row : Row) : Bool :=
  match row "started_at" with
  | .text started => decide (started < isoDate)
  | .null => false
  | _ => true

/-- Delete all runs started before a date. -/
def purgeBefore (db : Database) (isoDate : String) : Except Refusal Database :=
  orRefuse (db.deleteWhere .runs fun entry => startedBefore isoDate entry.2)

/-! ## Calls -/

/-- A call that writes. -/
inductive Call where
  | createRun (run : Row)
  | finishRun (runId : Int) (summary : RunSummary)
  | deleteRun (runId : Int)
  | insertCoreResult (rec : Row)
  | updateCoreResult (resultId : Int) (update : ResultUpdate)
  | insertEvent (event : Row)
  | insertTelemetryBatch (samples : List Row)
  | getOrCreateContext (ctx : Row)
  | updateContextNotes (contextId : Int) (notes : String)
  | createTunerSession (configJson biosVersion cpuModel appVersion : String)
      (contextId : Option Int)
  | updateTunerSessionStatus (sessionId : Int) (status : String)
  | setUnattributedCrashes (sessionId value : Int)
  | setValidationPosition (sessionId stage index half : Int) (dirty : Bool) (requeueJson : String)
  | setEndurancePosition (sessionId round workload index : Int)
  | setSessionBoot (sessionId : Int) (bootId : String)
  | updateTunerSessionConfig (sessionId : Int) (configJson : String)
  | setHuntState (sessionId : Int) (blob : String)
  | setResumeCrashStreak (sessionId value : Int)
  | insertTunerEvent (sessionId : Int) (message bootId severity : String)
  | insertTunerTestLog (sessionId : Int) (entry : Row)
  | upsertTunerCoreState (sessionId : Int) (state : Row)
  | journalCoIntent (sessionId coreId value : Int) (survived : Bool)
  | journalMarkSurvived (sessionId : Int) (excludeCores : List Int)
  | bankRegimeTime (contextId coreId : Int) (regime : String) (offsetValue : Int) (seconds : ℚ)
  | clearRegimeBanks (contextId coreId : Int)
  | deleteTunerSession (sessionId : Int)
  | deleteContextCascade (contextId : Int)
  | deleteOrphanedContexts
  | recoverIncompleteRuns
  | purgeBefore (isoDate : String)
  | mergeFrom (faults : Faults) (src : Database)

/-- The database a call leaves, whether it returns or raises. -/
def settled (db : Database) : Except Refusal Database → Database
  | .ok stored => stored
  | .error _ => db

/-- The database after an insertion. -/
def stored (db : Database) : Except Refusal (Int × Database) → Database
  | .ok (_, inserted) => inserted
  | .error _ => db

/-- The database after a call made at `now`. -/
def perform (db : Database) (now : String) : Call → Database
  | .createRun run => stored db (createRun db now run)
  | .finishRun runId summary => (finishRun db now runId summary).2
  | .deleteRun runId => settled db (deleteRun db runId)
  | .insertCoreResult rec => stored db (insertCoreResult db now rec)
  | .updateCoreResult resultId update => updateCoreResult db resultId update
  | .insertEvent event => stored db (insertEvent db now event)
  | .insertTelemetryBatch samples => (insertTelemetryBatch db now samples).2
  | .getOrCreateContext ctx => stored db (getOrCreateContext db now ctx)
  | .updateContextNotes contextId notes => updateContextNotes db contextId notes
  | .createTunerSession configJson biosVersion cpuModel appVersion contextId =>
      stored db (createTunerSession db now configJson biosVersion cpuModel appVersion contextId)
  | .updateTunerSessionStatus sessionId status => updateTunerSessionStatus db now sessionId status
  | .setUnattributedCrashes sessionId value => setUnattributedCrashes db now sessionId value
  | .setValidationPosition sessionId stage index half dirty requeueJson =>
      setValidationPosition db now sessionId stage index half dirty requeueJson
  | .setEndurancePosition sessionId round workload index =>
      setEndurancePosition db now sessionId round workload index
  | .setSessionBoot sessionId bootId => setSessionBoot db sessionId bootId
  | .updateTunerSessionConfig sessionId configJson =>
      updateTunerSessionConfig db now sessionId configJson
  | .setHuntState sessionId blob => setHuntState db sessionId blob
  | .setResumeCrashStreak sessionId value => setResumeCrashStreak db now sessionId value
  | .insertTunerEvent sessionId message bootId severity =>
      stored db (insertTunerEvent db now sessionId message bootId severity)
  | .insertTunerTestLog sessionId entry => stored db (insertTunerTestLog db now sessionId entry)
  | .upsertTunerCoreState sessionId state =>
      settled db (upsertTunerCoreState db now sessionId state)
  | .journalCoIntent sessionId coreId value survived =>
      settled db (journalCoIntent db now sessionId coreId value survived)
  | .journalMarkSurvived sessionId excludeCores =>
      journalMarkSurvived db now sessionId excludeCores
  | .bankRegimeTime contextId coreId regime offsetValue seconds =>
      settled db (bankRegimeTime db now contextId coreId regime offsetValue seconds)
  | .clearRegimeBanks contextId coreId => clearRegimeBanks db contextId coreId
  | .deleteTunerSession sessionId => settled db (deleteTunerSession db sessionId)
  | .deleteContextCascade contextId => settled db (deleteContextCascade db contextId)
  | .deleteOrphanedContexts => settled db (deleteOrphanedContexts db)
  | .recoverIncompleteRuns => (recoverIncompleteRuns db now).2
  | .purgeBefore isoDate => settled db (purgeBefore db isoDate)
  | .mergeFrom faults src => (mergeFrom faults db src).2

end History
end CoreCycler
