import CoreCycler.Library.Json
import CoreCycler.Tuner.HuntIsolation
import Mathlib

/-!
# The persisted form of a hunt

A hunt is written to the session row before every launch and read back by whatever
process comes after it.  `toJson` and `fromJson` are the writer and the reader, on
JSON documents: the text encoding of numbers, and of the workload that is carried
through as it came, are the JSON library's.  `Persistable` says in one place what
the validator of both asks, and a persistable hunt is read back as it was written.
-/

namespace CoreCycler
namespace Tuner
namespace Bisect

open Library

/-- A persisted hunt, with its workload left as the dictionary it is. -/
abbrev Document := Json WorkloadEntry

namespace Stage

/-- The value of the string enumeration. -/
def value : Stage → String
  | lead => "lead"
  | probe => "probe"
  | culprit => "culprit"
  | exhausted => "exhausted"

/-- `Stage(value)`, `none` where the constructor raises. -/
def ofValue? (text : String) : Option Stage :=
  [lead, probe, culprit, exhausted].find? fun stage => stage.value == text

@[simp] theorem ofValue?_value (stage : Stage) : ofValue? stage.value = some stage := by
  cases stage <;> decide

end Stage

def stateVersion : Int := 5

/-! ## Writing -/

def coresDocument (cores : List CoreId) : Document := .arr (cores.map fun core : CoreId => .int core)

def groupsDocument (groups : List (List CoreId)) : Document := .arr (groups.map coresDocument)

/-- The dictionary keys become strings. -/
def vectorDocument (vector : List (CoreId × Int)) : Document :=
  .obj (vector.map fun entry => (Nat.repr entry.1, .int entry.2))

def workloadDocument : Option WorkloadEntry → Document
  | none => .null
  | some workload => .leaf workload

/-- The members of the document, in the order they are written. -/
def HuntState.members (state : HuntState) : List (String × Document) :=
  [ ("version", .int stateVersion),
    ("stage", .str state.stage.value),
    ("candidates", coresDocument state.candidates),
    ("pending", groupsDocument state.pending),
    ("queue", groupsDocument state.queue),
    ("in_flight", coresDocument state.inFlight),
    ("parent", coresDocument state.parent),
    ("guilty_halves", groupsDocument state.guiltyHalves),
    ("level", .int state.level),
    ("found", coresDocument state.found),
    ("no_reproduce", .int state.noReproduce),
    ("launches_done", .int state.launchesDone),
    ("observed_failure_time", .float state.observedFailureTime),
    ("loaded", coresDocument state.loaded),
    ("armed", .bool state.armed),
    ("vector", vectorDocument state.vector),
    ("workload", workloadDocument state.workload) ]

/-- `HuntState.to_json`. -/
def toJson (state : HuntState) : Except String Document := do
  validateState state
  return .obj state.members

/-! ## Reading -/

/-- The keys a document of this version has. -/
def expectedKeys : List String :=
  ["version", "stage", "candidates", "pending", "queue", "in_flight", "parent",
    "guilty_halves", "level", "found", "no_reproduce", "launches_done",
    "observed_failure_time", "loaded", "armed", "vector", "workload"]

/-- `_counter` on a parsed value: only an integer passes, and no boolean is one. -/
def readCounter (value : Document) (name : String) : Except String Nat :=
  match value with
  | .int (.ofNat number) => counter number name
  | _ => .error (invalid s!"{name} must be an integer from 0 to {maxInteger}")

/-- `_duration` on a parsed value. -/
def readDuration (value : Document) (name : String) : Except String ℚ :=
  match value with
  | .int number => duration number name
  | .float number => duration number name
  | _ => .error (invalid s!"{name} must be a finite non-negative number")

/-- `_core_set` on a parsed value. -/
def readCoreSet (value : Document) (name : String) (empty : Bool) :
    Except String (List CoreId) :=
  match value with
  | .arr items => do
      let cores ← readEach (fun _ item => readCounter item s!"{name} core") 0 items
      coreSet cores name empty
  | _ => .error (invalid s!"{name} must be a list")

/-- `_core_sets`. -/
def readCoreSets (value : Document) (name : String) : Except String (List (List CoreId)) :=
  match value with
  | .arr items => do
      let groups ← readEach (fun index item => readCoreSet item s!"{name}[{index}]" false)
        0 items
      refuse (!decide groups.Nodup) s!"{name} must not contain duplicate sets"
      return groups
  | _ => .error (invalid s!"{name} must be a list")

/-- One entry of `_vector`.  Only the canonical decimal of a core ID is taken. -/
def readEntry (entry : String × Document) : Except String (CoreId × Int) :=
  match entry.1.toInt? with
  | none => .error (invalid "vector contains a non-integer core ID")
  | some (.negSucc _) => .error (invalid "vector contains an invalid core ID")
  | some (.ofNat core) => do
      refuse (entry.1 ≠ Nat.repr core ∨ maxInteger < core) "vector contains an invalid core ID"
      match entry.2 with
      | .int offset =>
          refuse (offset < minOffset ∨ (maxInteger : Int) < offset)
            "vector offsets must be bounded integers"
          return (core, offset)
      | _ => .error (invalid "vector offsets must be bounded integers")

/-- `_vector`. -/
def readVector (value : Document) : Except String (List (CoreId × Int)) :=
  match value with
  | .obj members => readEach (fun _ entry => readEntry entry) 0 members
  | _ => .error (invalid "vector must be an object")

def readVersion (value : Document) : Except String Unit :=
  match value with
  | .int number => refuse (number ≠ stateVersion) "unsupported version"
  | _ => .error (invalid "unsupported version")

def readArmed (value : Document) : Except String Bool :=
  match value with
  | .bool armed => .ok armed
  | _ => .error (invalid "armed must be a boolean")

def readWorkload (value : Document) : Except String (Option WorkloadEntry) :=
  match value with
  | .null => .ok none
  | .leaf workload => do
      let errors := workloadErrors "workload" 0 workload
      refuse (errors ≠ []) ("; ".intercalate errors)
      return some workload
  | _ => .error (invalid "workload[0] must be a dict")

def readStage (value : Document) : Except String Stage :=
  match value with
  | .str text =>
      match Stage.ofValue? text with
      | some stage => .ok stage
      | none => .error (invalid s!"'{text}' is not a valid Stage")
  | _ => .error (invalid "the value is not a valid Stage")

/-- `HuntState.from_json` on a nonempty text. -/
def fromJson (data : Document) : Except String HuntState :=
  match data with
  | .obj raw => do
      refuse (!Json.hasKeys raw expectedKeys) "state fields do not match the supported version"
      readVersion (Json.member raw "version")
      let armed ← readArmed (Json.member raw "armed")
      let workload ← readWorkload (Json.member raw "workload")
      let stage ← readStage (Json.member raw "stage")
      let candidates ← readCoreSet (Json.member raw "candidates") "candidates" false
      let pending ← readCoreSets (Json.member raw "pending") "pending"
      let queue ← readCoreSets (Json.member raw "queue") "queue"
      let inFlight ← readCoreSet (Json.member raw "in_flight") "in_flight" true
      let parent ← readCoreSet (Json.member raw "parent") "parent" true
      let guiltyHalves ← readCoreSets (Json.member raw "guilty_halves") "guilty_halves"
      let level ← readCounter (Json.member raw "level") "level"
      let found ← readCoreSet (Json.member raw "found") "found" true
      let noReproduce ← readCounter (Json.member raw "no_reproduce") "no_reproduce"
      let launchesDone ← readCounter (Json.member raw "launches_done") "launches_done"
      let observedFailureTime ←
        readDuration (Json.member raw "observed_failure_time") "observed_failure_time"
      let loaded ← readCoreSet (Json.member raw "loaded") "loaded" false
      let vector ← readVector (Json.member raw "vector")
      let state : HuntState :=
        { stage, candidates, pending, queue, inFlight, parent, guiltyHalves, level, found
          noReproduce, launchesDone, loaded, observedFailureTime, armed, vector, workload }
      validateState state
      return state
  | _ => .error (invalid "state must be an object")

/-! ## What the validator asks -/

/-- Strictly ascending, persistable core IDs. -/
structure IsCoreSet (cores : List CoreId) : Prop where
  bounded : ∀ core ∈ cores, core ≤ maxInteger
  ascending : cores.Pairwise (· < ·)

theorem ascending_of_eq_sortedSet {cores : List CoreId} (heq : cores = sortedSet cores) :
    cores.Pairwise (· < ·) := by
  have hnodup : cores.Nodup := heq ▸ nodup_sortedSet cores
  have hsorted : cores.Pairwise (· ≤ ·) := heq ▸ sorted_pairwise cores.dedup
  exact (hsorted.and hnodup).imp fun hboth => lt_of_le_of_ne hboth.1 hboth.2

theorem eq_sortedSet_of_ascending {cores : List CoreId} (hcores : cores.Pairwise (· < ·)) :
    cores = sortedSet cores := by
  have hnodup : cores.Nodup := hcores.imp ne_of_lt
  rw [sortedSet, hnodup.dedup]
  exact (sorted_of_pairwise (hcores.imp le_of_lt)).symm

theorem coreSet_eq_ok {cores result : List CoreId} {name : String} {empty : Bool} :
    coreSet cores name empty = .ok result ↔
      IsCoreSet cores ∧ (empty = false → cores ≠ []) ∧ result = cores := by
  unfold coreSet
  constructor
  · intro hok
    split at hok
    · cases hok
    next hbounded =>
    split at hok
    · cases hok
    next hne =>
    split at hok
    · cases hok
    next hset =>
    refine ⟨⟨by simpa using hbounded, ascending_of_eq_sortedSet (not_not.mp hset)⟩, ?_,
      (Except.ok.inj hok).symm⟩
    intro hempty hnil
    exact hne ⟨by simp [hempty], hnil⟩
  · rintro ⟨⟨hbounded, hascending⟩, hne, rfl⟩
    have hset : ¬ result ≠ sortedSet result :=
      not_not.mpr (eq_sortedSet_of_ascending hascending)
    rw [if_neg (by simpa using hbounded), if_neg (by simpa using hne), if_neg hset]

theorem counter_eq_ok {value result : Nat} {name : String} :
    counter value name = .ok result ↔ value ≤ maxInteger ∧ result = value := by
  unfold counter
  by_cases hle : value ≤ maxInteger
  · rw [if_neg (by omega)]
    simp [hle, eq_comm]
  · rw [if_pos (by omega)]
    simp [hle]

theorem duration_eq_ok {value result : ℚ} {name : String} :
    duration value name = .ok result ↔ 0 ≤ value ∧ result = value := by
  unfold duration
  by_cases hneg : value < 0
  · simp [hneg]
  · simp [hneg, not_lt.mp hneg, eq_comm]

theorem refuse_eq_ok {condition : Bool} {message : String} {result : Unit} :
    refuse condition message = .ok result ↔ condition = false := by
  cases condition <;> simp [refuse]

theorem mapM_coreSet_eq_ok {groups result : List (List CoreId)} {name : String} :
    groups.mapM (coreSet · name false) = .ok result ↔
      (∀ group ∈ groups, IsCoreSet group ∧ group ≠ []) ∧ result = groups := by
  induction groups generalizing result with
  | nil => simp [pure, Except.pure, eq_comm]
  | cons group rest ih =>
      simp only [List.mapM_cons, bind_eq_ok, coreSet_eq_ok, ih, List.forall_mem_cons]
      constructor
      · rintro ⟨value, ⟨hset, hne, rfl⟩, values, ⟨hrest, rfl⟩, hresult⟩
        exact ⟨⟨⟨hset, hne trivial⟩, hrest⟩, (Except.ok.inj hresult).symm⟩
      · rintro ⟨⟨⟨hset, hne⟩, hrest⟩, rfl⟩
        exact ⟨group, ⟨hset, fun _ => hne, rfl⟩, rest, ⟨hrest, rfl⟩, rfl⟩

theorem disjoint_eq_true {groups : List (List CoreId)} :
    disjoint groups = true ↔ groups.Pairwise List.Disjoint := by
  induction groups with
  | nil => simp [disjoint]
  | cons group rest ih =>
      simp only [disjoint, Bool.and_eq_true, ih, List.pairwise_cons, List.all_eq_true,
        decide_eq_true_eq, List.Disjoint]

/-- The split under test: the halves lie apart inside their parent, and so does the
rest of the work-list outside it. -/
structure SplitFits (state : HuntState) (halves : List (List CoreId)) : Prop where
  parent_two : 2 ≤ state.parent.length
  level_pos : 1 ≤ state.level
  halves_sub : ∀ half ∈ halves, half ⊆ state.parent
  halves_apart : halves.Pairwise List.Disjoint
  pending_apart : ∀ group ∈ state.pending, ∀ core ∈ group, core ∉ state.parent
  covers : ∀ first second, state.queue = [first, second] →
    first ++ second ⊆ state.parent ∧ state.parent ⊆ first ++ second

/-- The halves of the split under test that the state still holds. -/
def HuntState.activeHalves (state : HuntState) : List (List CoreId) :=
  state.queue ++ state.guiltyHalves ++ (if state.inFlight ≠ [] then [state.inFlight] else [])

/-- What the stage asks of the rest of the state. -/
def StageFits (state : HuntState) : Prop :=
  match state.stage with
  | .lead =>
      leadProbe state.candidates state.loaded ≠ [] ∧ state.pending = [state.candidates] ∧
        (state.inFlight = [] ∨ state.inFlight = leadProbe state.candidates state.loaded) ∧
        state.queue = [] ∧ state.guiltyHalves = [] ∧ state.parent = [] ∧ state.found = [] ∧
        state.level = 0 ∧ state.noReproduce = 0
  | .probe =>
      (state.queue.length ≤ 2 ∧ state.guiltyHalves.length ≤ 2) ∧
        (state.parent ≠ [] → SplitFits state state.activeHalves) ∧
        (state.parent = [] → state.queue = [] ∧ state.guiltyHalves = [] ∧
          state.inFlight = [] ∧ state.level = 0) ∧
        (state.pending ≠ [] ∨ state.queue ≠ [] ∨ state.inFlight ≠ [])
  | .culprit =>
      state.found ≠ [] ∧ state.pending = [] ∧ state.queue = [] ∧ state.inFlight = [] ∧
        state.parent = [] ∧ state.guiltyHalves = []
  | .exhausted =>
      state.pending = [] ∧ state.queue = [] ∧ state.inFlight = [] ∧ state.parent = [] ∧
        state.guiltyHalves = []

/-- What the validator asks of a hunt, field by field and then across fields. -/
structure Persistable (state : HuntState) : Prop where
  candidates_set : IsCoreSet state.candidates ∧ state.candidates ≠ []
  pending_sets : ∀ group ∈ state.pending, IsCoreSet group ∧ group ≠ []
  queue_sets : ∀ group ∈ state.queue, IsCoreSet group ∧ group ≠ []
  guilty_sets : ∀ group ∈ state.guiltyHalves, IsCoreSet group ∧ group ≠ []
  inFlight_set : IsCoreSet state.inFlight
  parent_set : IsCoreSet state.parent
  found_set : IsCoreSet state.found
  loaded_set : IsCoreSet state.loaded ∧ state.loaded ≠ []
  level_le : state.level ≤ maxInteger
  noReproduce_le : state.noReproduce ≤ maxInteger
  launchesDone_le : state.launchesDone ≤ maxInteger
  time_nonneg : 0 ≤ state.observedFailureTime
  vector_bounded : ∀ entry ∈ state.vector,
    entry.1 ≤ maxInteger ∧ minOffset ≤ entry.2 ∧ entry.2 ≤ maxInteger
  armed_ready : state.armed = true → state.vector ≠ [] ∧ state.inFlight ≠ []
  workload_sound : ∀ workload, state.workload = some workload →
    workloadErrors "workload" 0 workload = []
  pending_apart : state.pending.Pairwise List.Disjoint
  queue_apart : state.queue.Pairwise List.Disjoint
  guilty_apart : state.guiltyHalves.Pairwise List.Disjoint
  groups_sub : ∀ group ∈ state.pending ++ state.queue ++ state.guiltyHalves,
    group ⊆ state.candidates
  active_sub : state.inFlight ++ state.parent ⊆ state.candidates
  found_apart : ∀ core ∈ state.found, core ∉ state.inFlight ++ state.parent ++
    (state.pending ++ state.queue ++ state.guiltyHalves).flatten
  found_sub : state.found ⊆ state.candidates
  depth : state.level ≤ bitLength (state.candidates.length - 1)
  launches_probe : state.launchesDone ≠ 0 → state.inFlight ≠ []
  stage_fits : StageFits state

theorem validateLead_eq_ok {state : HuntState} (hstage : state.stage = .lead) :
    validateLead state = .ok () ↔ StageFits state := by
  unfold validateLead StageFits
  simp only [refuse_eq_ok, hstage, decide_eq_false_iff_not]
  tauto

theorem splitFits_iff {state : HuntState} :
    SplitFits state state.activeHalves ↔
      (2 ≤ state.parent.length ∧ 1 ≤ state.level) ∧
        (∀ half ∈ state.activeHalves, half ⊆ state.parent) ∧
        state.activeHalves.Pairwise List.Disjoint ∧
        (∀ group ∈ state.pending, ∀ core ∈ group, core ∉ state.parent) ∧
        (∀ first second, state.queue = [first, second] →
          first ++ second ⊆ state.parent ∧ state.parent ⊆ first ++ second) := by
  constructor
  · rintro ⟨htwo, hlevel, hsub, hapart, hpending, hcovers⟩
    exact ⟨⟨htwo, hlevel⟩, hsub, hapart, hpending, hcovers⟩
  · rintro ⟨⟨htwo, hlevel⟩, hsub, hapart, hpending, hcovers⟩
    exact ⟨htwo, hlevel, hsub, hapart, hpending, hcovers⟩

theorem validateProbe_eq_ok {state : HuntState} (hstage : state.stage = .probe) :
    validateProbe state = .ok () ↔ StageFits state := by
  unfold validateProbe StageFits
  simp only [hstage]
  by_cases hparent : state.parent ≠ []
  · have hhalves : state.queue ++ state.guiltyHalves ++
        (if state.inFlight ≠ [] then [state.inFlight] else []) = state.activeHalves := rfl
    have hnot : ¬ state.parent = [] := hparent
    simp only [if_pos hparent, bind_eq_ok, refuse_eq_ok, exists_const, hhalves]
    simp only [decide_eq_false_iff_not, List.any_eq_false, List.any_eq_true, Bool.not_eq_true',
      Bool.not_eq_false', disjoint_eq_true, decide_eq_true_eq, not_or, not_lt, not_exists,
      not_and, not_not, hnot, not_false_eq_true, false_implies, true_implies, true_and,
      splitFits_iff, ne_eq]
    -- Only a fully queued split is compared with its parent.
    cases hqueue : state.queue with
    | nil =>
        simp only [refuse_eq_ok, decide_eq_false_iff_not]
        simp
        tauto
    | cons first rest =>
        cases rest with
        | nil => simp [refuse_eq_ok]
        | cons second others =>
            cases others with
            | nil => simp [refuse_eq_ok, bind_eq_ok]
            | cons _ _ => simp
  · simp only [not_not.mp hparent, ne_eq, not_true_eq_false, if_false, bind_eq_ok,
      refuse_eq_ok, exists_const, decide_eq_false_iff_not, not_or, not_and_or, not_lt,
      not_not, false_implies, true_implies, true_and]

/-- **The validator, in one place.** -/
theorem validateState_eq_ok {state : HuntState} :
    validateState state = .ok () ↔ Persistable state := by
  have hstage : ∀ stage, state.stage = stage →
      ((match stage with
        | .lead => validateLead state
        | .probe => validateProbe state
        | .culprit =>
            refuse (state.found = [] ∨ state.pending ≠ [] ∨ state.queue ≠ [] ∨
              state.inFlight ≠ [] ∨ state.parent ≠ [] ∨ state.guiltyHalves ≠ [])
              "culprit stage requires only confirmed culprits"
        | .exhausted =>
            refuse (state.pending ≠ [] ∨ state.queue ≠ [] ∨ state.inFlight ≠ [] ∨
              state.parent ≠ [] ∨ state.guiltyHalves ≠ [])
              "exhausted stage has unresolved work") = .ok () ↔ StageFits state) := by
    intro stage hstage
    cases stage with
    | lead => exact validateLead_eq_ok hstage
    | probe => exact validateProbe_eq_ok hstage
    | culprit => simp [StageFits, hstage, refuse_eq_ok]
    | exhausted => simp [StageFits, hstage, refuse_eq_ok]
  unfold validateState
  simp only [bind_eq_ok, coreSet_eq_ok, counter_eq_ok, duration_eq_ok, refuse_eq_ok,
    mapM_coreSet_eq_ok]
  simp only [and_assoc, exists_and_left, exists_eq_left, exists_const, true_implies,
    reduceCtorEq, false_implies, true_and]
  cases hworkload : state.workload with
  | none =>
      simp only [bind_eq_ok, refuse_eq_ok, exists_const]
      simp only [Bool.not_eq_false', disjoint_eq_true, decide_eq_true_eq,
        decide_eq_false_iff_not, List.any_eq_false, List.any_eq_true, not_or, not_and, not_lt,
        not_not, not_exists, Bool.not_eq_true']
      constructor
      · rintro ⟨hcandidates, hcandidatesNe, hpending, hqueue, hguilty, hflight, hparent, hfound,
          hloaded, hloadedNe, hlevel, hretries, hlaunches, htime, hvector, harmed,
          hpendingApart, hqueueApart, hguiltyApart, ⟨hgroups, hactive⟩, hfoundApart,
          hfoundSub, hdepth, hprobe, hstageOk⟩
        exact ⟨⟨hcandidates, hcandidatesNe⟩, hpending, hqueue, hguilty, hflight, hparent, hfound,
          ⟨hloaded, hloadedNe⟩, hlevel, hretries, hlaunches, htime, hvector, harmed, by simp
          [hworkload], hpendingApart, hqueueApart, hguiltyApart, hgroups, hactive,
          hfoundApart, hfoundSub, hdepth, hprobe, (hstage _ rfl).mp hstageOk⟩
      · rintro ⟨⟨hcandidates, hcandidatesNe⟩, hpending, hqueue, hguilty, hflight, hparent, hfound,
          ⟨hloaded, hloadedNe⟩, hlevel, hretries, hlaunches, htime, hvector, harmed,
          hworkloads, hpendingApart, hqueueApart, hguiltyApart, hgroups, hactive, hfoundApart,
          hfoundSub, hdepth, hprobe, hfits⟩
        exact ⟨hcandidates, hcandidatesNe, hpending, hqueue, hguilty, hflight, hparent, hfound,
          hloaded, hloadedNe, hlevel, hretries, hlaunches, htime, hvector, harmed,
          hpendingApart, hqueueApart, hguiltyApart, ⟨hgroups, hactive⟩, hfoundApart,
          hfoundSub, hdepth, hprobe, (hstage _ rfl).mpr hfits⟩
  | some workload =>
      simp only [bind_eq_ok, refuse_eq_ok, exists_const]
      simp only [Bool.not_eq_false', disjoint_eq_true, decide_eq_true_eq,
        decide_eq_false_iff_not, List.any_eq_false, List.any_eq_true, not_or, not_and, not_lt,
        not_not, not_exists, Bool.not_eq_true']
      constructor
      · rintro ⟨hcandidates, hcandidatesNe, hpending, hqueue, hguilty, hflight, hparent, hfound,
          hloaded, hloadedNe, hlevel, hretries, hlaunches, htime, hvector, harmed, herrors,
          hpendingApart, hqueueApart, hguiltyApart, ⟨hgroups, hactive⟩, hfoundApart,
          hfoundSub, hdepth, hprobe, hstageOk⟩
        exact ⟨⟨hcandidates, hcandidatesNe⟩, hpending, hqueue, hguilty, hflight, hparent, hfound,
          ⟨hloaded, hloadedNe⟩, hlevel, hretries, hlaunches, htime, hvector, harmed, by simpa
          [hworkload] using herrors, hpendingApart, hqueueApart, hguiltyApart, hgroups,
          hactive, hfoundApart, hfoundSub, hdepth, hprobe, (hstage _ rfl).mp hstageOk⟩
      · rintro ⟨⟨hcandidates, hcandidatesNe⟩, hpending, hqueue, hguilty, hflight, hparent, hfound,
          ⟨hloaded, hloadedNe⟩, hlevel, hretries, hlaunches, htime, hvector, harmed,
          hworkloads, hpendingApart, hqueueApart, hguiltyApart, hgroups, hactive, hfoundApart,
          hfoundSub, hdepth, hprobe, hfits⟩
        exact ⟨hcandidates, hcandidatesNe, hpending, hqueue, hguilty, hflight, hparent, hfound,
          hloaded, hloadedNe, hlevel, hretries, hlaunches, htime, hvector, harmed, hworkloads
          workload hworkload, hpendingApart, hqueueApart, hguiltyApart, ⟨hgroups, hactive⟩,
          hfoundApart, hfoundSub, hdepth, hprobe, (hstage _ rfl).mpr hfits⟩

/-! ## The round trip -/

theorem readCounter_int {value : Nat} (hle : value ≤ maxInteger) (name : String) :
    readCounter (.int value) name = .ok value :=
  counter_eq_ok.mpr ⟨hle, rfl⟩

theorem readCoreSet_coresDocument {cores : List CoreId} (hcores : IsCoreSet cores)
    (name : String) {empty : Bool} (hne : empty = false → cores ≠ []) :
    readCoreSet (coresDocument cores) name empty = .ok cores := by
  have hitems : readEach (fun _ item => readCounter item s!"{name} core") 0
      (cores.map fun core : CoreId => (.int core : Document)) = .ok cores := by
    apply readEach_map
    intro index core hcore
    exact readCounter_int (hcores.bounded core hcore) _
  show (readEach (fun _ item => readCounter item s!"{name} core") 0
    (cores.map fun core : CoreId => (.int core : Document)) >>= fun cores =>
      coreSet cores name empty) = .ok cores
  rw [hitems]
  exact coreSet_eq_ok.mpr ⟨hcores, hne, rfl⟩

/-- Nonempty sets that lie apart are no duplicates of each other. -/
theorem nodup_of_apart {groups : List (List CoreId)} (hne : ∀ group ∈ groups, group ≠ [])
    (hapart : groups.Pairwise List.Disjoint) : groups.Nodup := by
  apply hapart.imp_of_mem
  intro first second hfirst _ hdisjoint heq
  obtain ⟨core, hcore⟩ := List.exists_mem_of_ne_nil first (hne first hfirst)
  exact hdisjoint hcore (heq ▸ hcore)

theorem readCoreSets_groupsDocument {groups : List (List CoreId)}
    (hsets : ∀ group ∈ groups, IsCoreSet group ∧ group ≠ [])
    (hapart : groups.Pairwise List.Disjoint) (name : String) :
    readCoreSets (groupsDocument groups) name = .ok groups := by
  have hitems : readEach (fun index item => readCoreSet item s!"{name}[{index}]" false) 0
      (groups.map coresDocument) = .ok groups := by
    apply readEach_map
    intro index group hgroup
    obtain ⟨hset, hne⟩ := hsets group hgroup
    exact readCoreSet_coresDocument hset _ fun _ => hne
  have hnodup : groups.Nodup := nodup_of_apart (fun group hgroup => (hsets group hgroup).2) hapart
  show (readEach (fun index item => readCoreSet item s!"{name}[{index}]" false) 0
    (groups.map coresDocument) >>= fun groups =>
      refuse (!decide groups.Nodup) s!"{name} must not contain duplicate sets" >>= fun _ =>
        Except.ok groups) = .ok groups
  rw [hitems, ok_bind, decide_eq_true hnodup]
  rfl

theorem readVector_vectorDocument {vector : List (CoreId × Int)}
    (hbounded : ∀ entry ∈ vector,
      entry.1 ≤ maxInteger ∧ minOffset ≤ entry.2 ∧ entry.2 ≤ maxInteger) :
    readVector (vectorDocument vector) = .ok vector := by
  apply readEach_map
  intro index entry hentry
  obtain ⟨hcore, hlow, hhigh⟩ := hbounded entry hentry
  have hkey : ¬ (Nat.repr entry.1 ≠ Nat.repr entry.1 ∨ maxInteger < entry.1) := by
    simp only [ne_eq, not_true_eq_false, false_or, not_lt]
    exact hcore
  have hoffset : ¬ (entry.2 < minOffset ∨ (maxInteger : Int) < entry.2) := by omega
  have hparse : (Nat.repr entry.1).toInt? = some (Int.ofNat entry.1) := Nat.toInt?_repr entry.1
  unfold readEntry
  simp only [hparse, decide_eq_false hkey, decide_eq_false hoffset, refuse, ok_bind,
    Bool.false_eq_true, if_false]
  rfl

theorem readWorkload_workloadDocument {workload : Option WorkloadEntry}
    (hsound : ∀ entry, workload = some entry → workloadErrors "workload" 0 entry = []) :
    readWorkload (workloadDocument workload) = .ok workload := by
  cases workload with
  | none => rfl
  | some entry =>
      have herrors : workloadErrors "workload" 0 entry = [] := hsound entry rfl
      simp only [workloadDocument, readWorkload, herrors]
      rfl

/-- **Round trip.**  A persistable hunt is written, and read back as it was. -/
theorem fromJson_toJson {state : HuntState} (hstate : Persistable state) :
    ∃ document, toJson state = .ok document ∧ fromJson document = .ok state := by
  have hvalid : validateState state = .ok () := validateState_eq_ok.mpr hstate
  refine ⟨.obj state.members, ?_, ?_⟩
  · rw [toJson, hvalid]
    rfl
  · have hkeys : Json.hasKeys state.members expectedKeys = true := Json.hasKeys_of_map_eq rfl
    have hversion : readVersion (Json.member state.members "version") = .ok () := rfl
    have harmed : readArmed (Json.member state.members "armed") = .ok state.armed := rfl
    have hworkload : readWorkload (Json.member state.members "workload") = .ok state.workload :=
      readWorkload_workloadDocument hstate.workload_sound
    have hstage : readStage (Json.member state.members "stage") = .ok state.stage := by
      show readStage (.str state.stage.value) = .ok state.stage
      rw [readStage, Stage.ofValue?_value]
    have hcandidates : readCoreSet (Json.member state.members "candidates") "candidates" false =
        .ok state.candidates :=
      readCoreSet_coresDocument hstate.candidates_set.1 _ fun _ => hstate.candidates_set.2
    have hpending : readCoreSets (Json.member state.members "pending") "pending" =
        .ok state.pending :=
      readCoreSets_groupsDocument hstate.pending_sets hstate.pending_apart _
    have hqueue : readCoreSets (Json.member state.members "queue") "queue" =
        .ok state.queue :=
      readCoreSets_groupsDocument hstate.queue_sets hstate.queue_apart _
    have hinFlight : readCoreSet (Json.member state.members "in_flight") "in_flight" true =
        .ok state.inFlight :=
      readCoreSet_coresDocument hstate.inFlight_set _ nofun
    have hparent : readCoreSet (Json.member state.members "parent") "parent" true =
        .ok state.parent :=
      readCoreSet_coresDocument hstate.parent_set _ nofun
    have hguilty : readCoreSets (Json.member state.members "guilty_halves") "guilty_halves" =
        .ok state.guiltyHalves :=
      readCoreSets_groupsDocument hstate.guilty_sets hstate.guilty_apart _
    have hfound : readCoreSet (Json.member state.members "found") "found" true =
        .ok state.found :=
      readCoreSet_coresDocument hstate.found_set _ nofun
    have hloaded : readCoreSet (Json.member state.members "loaded") "loaded" false =
        .ok state.loaded :=
      readCoreSet_coresDocument hstate.loaded_set.1 _ fun _ => hstate.loaded_set.2
    have hlevel : readCounter (Json.member state.members "level") "level" = .ok state.level :=
      readCounter_int hstate.level_le _
    have hretries : readCounter (Json.member state.members "no_reproduce") "no_reproduce" =
        .ok state.noReproduce := readCounter_int hstate.noReproduce_le _
    have hlaunches : readCounter (Json.member state.members "launches_done") "launches_done" =
        .ok state.launchesDone := readCounter_int hstate.launchesDone_le _
    have htime : readDuration (Json.member state.members "observed_failure_time")
        "observed_failure_time" = .ok state.observedFailureTime :=
      duration_eq_ok.mpr ⟨hstate.time_nonneg, rfl⟩
    have hvector : readVector (Json.member state.members "vector") = .ok state.vector :=
      readVector_vectorDocument hstate.vector_bounded
    unfold fromJson
    simp only [hkeys, refuse, Bool.not_true, Bool.false_eq_true, if_false, ok_bind, hversion,
      harmed, hworkload, hstage, hcandidates, hpending, hqueue, hinFlight, hparent, hguilty,
      hlevel, hfound, hretries, hlaunches, htime, hloaded, hvector]
    show (validateState state >>= fun _ => Except.ok state) = .ok state
    rw [hvalid]
    rfl

end Bisect
end Tuner
end CoreCycler
