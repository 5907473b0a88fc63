import CoreCycler.Library.Tables
import Mathlib.Data.Rat.Defs
import Mathlib.Algebra.Order.Ring.Rat

/-!
# The history database

The tables of the history database as their DDL declares them, the columns that the table
specifications name, and a database with its constraints.  A row of a table with an ID is a
value for each column; the CO journal and the regime banks, which have no ID of their own, are
typed.
-/

namespace CoreCycler
namespace History

open Library.Tables

/-- A value of a column. -/
inductive Value where
  | null
  | integer (n : Int)
  | real (q : ℚ)
  | text (s : String)
deriving DecidableEq

/-- A row without its ID. -/
abbrev Row := String → Value

/-- The tables with an ID. -/
inductive TableName where
  | tuningContexts
  | runs
  | coreResults
  | events
  | telemetrySamples
  | tunerSessions
  | tunerCoreStates
  | tunerTestLog
  | tunerEvents
deriving DecidableEq, Repr

/-- What the DDL of a table declares of its columns besides `id`. -/
structure Ddl where
  columns : List String
  nullable : List String := []
  references : List (String × TableName) := []
  unique : List (List String) := []

def tuningContextsDdl : Ddl where
  columns :=
    ["created_at", "bios_version", "cpu_model", "physical_cores", "ccds", "co_offsets_json",
     "context_hash", "pbo_scalar", "boost_limit_mhz", "notes", "ppt_limit_w", "tdc_limit_a",
     "edc_limit_a"]
  nullable :=
    ["pbo_scalar", "boost_limit_mhz", "ppt_limit_w", "tdc_limit_a", "edc_limit_a"]
  unique := [["context_hash", "bios_version"]]

def runsDdl : Ddl where
  columns :=
    ["started_at", "finished_at", "status", "cpu_model", "physical_cores", "logical_cpus",
     "ccds", "is_x3d", "backend", "stress_mode", "fft_preset", "seconds_per_core", "cycle_count",
     "stop_on_error", "variable_load", "idle_stability_test", "max_temperature", "settings_json",
     "context_id", "bios_version", "total_cores", "cores_passed", "cores_failed", "total_seconds"]
  nullable :=
    ["finished_at", "context_id"]
  references := [("context_id", .tuningContexts)]

def coreResultsDdl : Ddl where
  columns :=
    ["run_id", "core_id", "ccd", "cycle", "started_at", "finished_at", "passed", "error_message",
     "error_type", "elapsed_seconds", "iterations_completed", "peak_freq_mhz", "max_temp_c",
     "min_vcore_v", "max_vcore_v"]
  nullable :=
    ["ccd", "finished_at", "passed", "error_message", "error_type", "peak_freq_mhz",
     "max_temp_c", "min_vcore_v", "max_vcore_v"]
  references := [("run_id", .runs)]

def eventsDdl : Ddl where
  columns :=
    ["run_id", "timestamp", "event_type", "core_id", "message", "details_json"]
  nullable :=
    ["core_id", "details_json"]
  references := [("run_id", .runs)]

def telemetrySamplesDdl : Ddl where
  columns :=
    ["run_id", "core_id", "timestamp", "freq_mhz", "effective_max_mhz", "temp_c", "vcore_v"]
  nullable :=
    ["freq_mhz", "effective_max_mhz", "temp_c", "vcore_v"]
  references := [("run_id", .runs)]

def tunerSessionsDdl : Ddl where
  columns :=
    ["created_at", "updated_at", "status", "bios_version", "cpu_model", "config_json",
     "context_id", "resume_crash_streak", "notes", "unattributed_crashes", "contract_version",
     "validation_stage", "validation_index", "validation_half", "validation_dirty",
     "validation_requeue", "endurance_round", "endurance_workload", "endurance_index", "boot_id",
     "app_version", "hunt_state"]
  nullable :=
    ["context_id"]
  references := [("context_id", .tuningContexts)]

def tunerCoreStatesDdl : Ddl where
  columns :=
    ["session_id", "core_id", "phase", "current_offset", "best_offset", "proven_offset",
     "coarse_fail_offset", "confirm_attempts", "baseline_offset", "backoff_mode",
     "consecutive_backoff_fails", "backoff_fail_bound", "backoff_pass_bound", "in_test",
     "crash_count", "crash_cooldown", "thermal_aborts", "cumulative_test_time", "battery_index",
     "anneal_strikes", "anneal_bar_hours", "suspicion", "updated_at"]
  nullable :=
    ["best_offset", "proven_offset", "coarse_fail_offset", "backoff_fail_bound",
     "backoff_pass_bound"]
  references := [("session_id", .tunerSessions)]
  unique := [["session_id", "core_id"]]

def tunerTestLogDdl : Ddl where
  columns :=
    ["session_id", "core_id", "offset_tested", "phase", "passed", "error_message", "error_type",
     "duration_seconds", "run_id", "backend", "stress_mode", "fft_preset", "tested_at",
     "peak_stretch_pct", "threads", "profile", "regime"]
  nullable :=
    ["error_message", "error_type", "duration_seconds", "run_id", "backend", "stress_mode",
     "fft_preset", "peak_stretch_pct", "threads", "profile", "regime"]
  references := [("session_id", .tunerSessions), ("run_id", .runs)]

def tunerEventsDdl : Ddl where
  columns :=
    ["session_id", "timestamp", "boot_id", "severity", "message"]
  references := [("session_id", .tunerSessions)]

def ddl : TableName → Ddl
  | .tuningContexts => tuningContextsDdl
  | .runs => runsDdl
  | .coreResults => coreResultsDdl
  | .events => eventsDdl
  | .telemetrySamples => telemetrySamplesDdl
  | .tunerSessions => tunerSessionsDdl
  | .tunerCoreStates => tunerCoreStatesDdl
  | .tunerTestLog => tunerTestLogDdl
  | .tunerEvents => tunerEventsDdl

/-- The columns of the table specifications. -/
def specColumns : TableName → List String
  | .tuningContexts =>
      ["id", "created_at", "bios_version", "cpu_model", "physical_cores", "ccds",
       "co_offsets_json", "context_hash", "pbo_scalar", "boost_limit_mhz", "notes",
       "ppt_limit_w", "tdc_limit_a", "edc_limit_a"]
  | .runs =>
      ["id", "started_at", "finished_at", "status", "cpu_model", "physical_cores",
       "logical_cpus", "ccds", "is_x3d", "backend", "stress_mode", "fft_preset",
       "seconds_per_core", "cycle_count", "stop_on_error", "variable_load",
       "idle_stability_test", "max_temperature", "settings_json", "context_id", "bios_version",
       "total_cores", "cores_passed", "cores_failed", "total_seconds"]
  | .coreResults =>
      ["id", "run_id", "core_id", "ccd", "cycle", "started_at", "finished_at", "passed",
       "error_message", "error_type", "elapsed_seconds", "iterations_completed", "peak_freq_mhz",
       "max_temp_c", "min_vcore_v", "max_vcore_v"]
  | .events =>
      ["id", "run_id", "timestamp", "event_type", "core_id", "message", "details_json"]
  | .telemetrySamples =>
      ["id", "run_id", "core_id", "timestamp", "freq_mhz", "effective_max_mhz", "temp_c",
       "vcore_v"]
  | .tunerSessions =>
      ["id", "created_at", "updated_at", "boot_id", "status", "bios_version", "cpu_model",
       "app_version", "config_json", "context_id", "resume_crash_streak", "notes",
       "unattributed_crashes", "validation_stage", "validation_index", "validation_half",
       "validation_dirty", "validation_requeue", "endurance_round", "endurance_workload",
       "endurance_index", "hunt_state", "contract_version"]
  | .tunerCoreStates =>
      ["core_id", "phase", "current_offset", "best_offset", "proven_offset",
       "coarse_fail_offset", "confirm_attempts", "baseline_offset", "backoff_mode",
       "consecutive_backoff_fails", "backoff_fail_bound", "backoff_pass_bound", "in_test",
       "crash_count", "crash_cooldown", "thermal_aborts", "cumulative_test_time",
       "battery_index", "anneal_strikes", "anneal_bar_hours", "suspicion", "id", "session_id",
       "updated_at"]
  | .tunerEvents =>
      ["id", "session_id", "timestamp", "boot_id", "severity", "message"]
  | .tunerTestLog =>
      ["id", "session_id", "core_id", "offset_tested", "phase", "passed", "error_message",
       "error_type", "duration_seconds", "run_id", "backend", "stress_mode", "fft_preset",
       "tested_at", "peak_stretch_pct", "threads", "profile", "regime"]

/-- The columns an insertion names. -/
def insertColumns (table : TableName) : List String :=
  (specColumns table).filter (· ≠ "id")

/-- An insertion names every column of its table, and no other. -/
theorem insertColumns_perm (table : TableName) :
    (insertColumns table).Perm (ddl table).columns := by
  cases table <;> decide +kernel

/-- A row of the CO journal. -/
structure JournalRow where
  sessionId : Int
  coreId : Int
  value : Int
  survived : Int
  updatedAt : String
deriving DecidableEq

/-- Clean time banked at an offset. -/
structure BankRow where
  contextId : Int
  coreId : Int
  regime : String
  offsetValue : Int
  cleanSeconds : ℚ
  updatedAt : String
deriving DecidableEq

/-- The unique key of a bank. -/
def BankRow.key (bank : BankRow) : Int × Int × String × Int :=
  (bank.contextId, bank.coreId, bank.regime, bank.offsetValue)

/-- The unique key of a journal row. -/
def JournalRow.key (row : JournalRow) : Int × Int := (row.sessionId, row.coreId)

structure Database where
  tables : TableName → Table Row
  journal : List JournalRow
  banks : List BankRow

namespace Database

/-- The table has a row with this ID. -/
def HasId (db : Database) (table : TableName) (id : Int) : Prop :=
  ∃ entry ∈ (db.tables table).rows, entry.1 = id

instance (db : Database) (table : TableName) (id : Int) : Decidable (db.HasId table id) :=
  inferInstanceAs (Decidable (∃ entry ∈ (db.tables table).rows, entry.1 = id))

/-- A reference is absent or points at a row of its parent table. -/
def Resolves (db : Database) (parent : TableName) : Value → Prop
  | .null => True
  | .integer id => db.HasId parent id
  | _ => False

instance (db : Database) (parent : TableName) (value : Value) :
    Decidable (db.Resolves parent value) :=
  match value with
  | .null => inferInstanceAs (Decidable True)
  | .integer id => inferInstanceAs (Decidable (db.HasId parent id))
  | .real _ => inferInstanceAs (Decidable False)
  | .text _ => inferInstanceAs (Decidable False)

/-- A row meets the constraints of its columns. -/
structure Fits (db : Database) (table : TableName) (row : Row) : Prop where
  notNull : ∀ column ∈ (ddl table).columns, column ∉ (ddl table).nullable → row column ≠ .null
  resolves : ∀ reference ∈ (ddl table).references, db.Resolves reference.2 (row reference.1)

end Database

/-- Two rows agree on a unique key. -/
def SameKey (key : List String) (row other : Row) : Prop :=
  ∀ column ∈ key, row column = other column

instance (key : List String) (row other : Row) : Decidable (SameKey key row other) :=
  inferInstanceAs (Decidable (∀ column ∈ key, row column = other column))

/-- No two rows of a table agree on one of its unique keys. -/
def Distinct (table : TableName) (rows : List Row) : Prop :=
  ∀ key ∈ (ddl table).unique, rows.Pairwise fun row other => ¬ SameKey key row other

/-- A database that meets its schema, with intact references. -/
structure Database.Valid (db : Database) : Prop where
  fits : ∀ table, ∀ entry ∈ (db.tables table).rows, db.Fits table entry.2
  /-- A row has values for the columns of its table. -/
  columns : ∀ table, ∀ entry ∈ (db.tables table).rows,
    ∀ column ∉ (ddl table).columns, entry.2 column = .null
  distinct : ∀ table, Distinct table ((db.tables table).rows.map Prod.snd)
  journalResolves : ∀ row ∈ db.journal, db.HasId .tunerSessions row.sessionId
  journalDistinct : (db.journal.map JournalRow.key).Nodup
  banksResolve : ∀ bank ∈ db.banks, db.HasId .tuningContexts bank.contextId
  banksDistinct : (db.banks.map BankRow.key).Nodup

end History
end CoreCycler
