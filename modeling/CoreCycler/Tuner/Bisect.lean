import CoreCycler.Tuner.Regime
import Mathlib.Data.Rat.Defs

/-!
# The attribution hunt

The bisection over the live-offset mask.  A probe leaves the cores of one group
at their crash-time offsets and parks every other core at stock; `record` folds
the answer back in.  `pending` is the work-list of groups known to fail, `queue`
holds the halves of the split under test, and `parent` is the group that split
came from.
-/

namespace CoreCycler
namespace Tuner

/-- A physical core.  Persisted IDs are checked to be non-negative wherever they
enter the hunt. -/
abbrev CoreId := Nat

namespace Bisect

/-- Where a hunt stands. -/
inductive Stage
  | lead
  | probe
  | culprit
  | exhausted
deriving DecidableEq, Repr

/-- Halve a candidate set, larger half first. -/
def split (candidates : List CoreId) : List CoreId × List CoreId :=
  let mid := (candidates.length + 1) / 2
  (candidates.take mid, candidates.drop mid)

/-- The loaded core to probe alone first, when exactly one live core was under
load. -/
def leadProbe (candidates loaded : List CoreId) : List CoreId :=
  let lead := loaded.filter (· ∈ candidates)
  if lead.length = 1 ∧ 1 < candidates.length then lead else []

def maxInteger : Nat := 2 ^ 31 - 1

def minOffset : Int := -(2 ^ 31)

/-- `int.bit_length`. -/
def bitLength (n : Nat) : Nat := if n = 0 then 0 else Nat.log2 n + 1

/-- Ascending order without repetitions: `sorted(set(...))`. -/
def sortedSet (cores : List CoreId) : List CoreId := cores.dedup.insertionSort (· ≤ ·)

/-- Ascending order: `sorted(...)`. -/
def sorted (cores : List CoreId) : List CoreId := cores.insertionSort (· ≤ ·)

/-- Serialisable progress of one attribution hunt. -/
structure HuntState where
  stage : Stage := .probe
  candidates : List CoreId := []
  pending : List (List CoreId) := []
  queue : List (List CoreId) := []
  inFlight : List CoreId := []
  parent : List CoreId := []
  guiltyHalves : List (List CoreId) := []
  level : Nat := 0
  found : List CoreId := []
  noReproduce : Nat := 0
  launchesDone : Nat := 0
  loaded : List CoreId := []
  observedFailureTime : ℚ := 0
  armed : Bool := false
  vector : List (CoreId × Int) := []
  workload : Option WorkloadEntry := none
deriving DecidableEq, Repr

namespace HuntState

/-- Whether any probe was dispatched or answered; until then this is only crash
context. -/
def started (state : HuntState) : Bool :=
  if state.stage = .lead then
    state.inFlight ≠ []
  else
    state.stage ≠ .probe ∨ state.pending ≠ [state.candidates] ∨
      (state.inFlight ≠ [] ∨ state.queue ≠ [] ∨ state.parent ≠ [] ∨ state.found ≠ [] ∨
        state.noReproduce ≠ 0) ∨
      leadProbe state.candidates state.loaded ≠ []

end HuntState

/-! ## Validation -/

/-- Persisted hunt state is present but cannot be trusted. -/
def invalid (message : String) : String := s!"invalid persisted hunt state: {message}"

def counter (value : Nat) (name : String) : Except String Nat :=
  if maxInteger < value then
    .error (invalid s!"{name} must be an integer from 0 to {maxInteger}")
  else
    .ok value

def duration (value : ℚ) (name : String) : Except String ℚ :=
  if value < 0 then
    .error (invalid s!"{name} must be a finite non-negative number")
  else
    .ok value

/-- A sorted set of bounded core IDs, nonempty unless `empty`. -/
def coreSet (value : List CoreId) (name : String) (empty : Bool) :
    Except String (List CoreId) :=
  if value.any (maxInteger < ·) then
    .error (invalid s!"{name} core must be an integer from 0 to {maxInteger}")
  else if !empty ∧ value = [] then
    .error (invalid s!"{name} must not be empty")
  else if value ≠ sortedSet value then
    .error (invalid s!"{name} must be a sorted set of core IDs")
  else
    .ok value

/-- No core lies in two of the groups. -/
def disjoint : List (List CoreId) → Bool
  | [] => true
  | group :: rest => rest.all (fun other => group.all (· ∉ other)) && disjoint rest

def refuse (condition : Bool) (message : String) : Except String Unit :=
  if condition then .error (invalid message) else .ok ()

/-- The checks of a `LEAD` state. -/
def validateLead (state : HuntState) : Except String Unit :=
  let lead := leadProbe state.candidates state.loaded
  refuse
    (lead = [] ∨ state.pending ≠ [state.candidates] ∨
      (state.inFlight ≠ [] ∧ state.inFlight ≠ lead) ∨ state.queue ≠ [] ∨
      state.guiltyHalves ≠ [] ∨ state.parent ≠ [] ∨ state.found ≠ [] ∨ state.level ≠ 0 ∨
      state.noReproduce ≠ 0)
    "lead stage probes only the one loaded live core, before any bisection"

/-- The checks of a `PROBE` state. -/
def validateProbe (state : HuntState) : Except String Unit := do
  refuse (2 < state.queue.length ∨ 2 < state.guiltyHalves.length)
    "probe stage has too many split sets"
  if state.parent ≠ [] then
    refuse (state.parent.length < 2 ∨ state.level < 1)
      "probe parent and level are inconsistent"
    -- The halves of the split under way, the one in flight among them.
    let activeHalves := state.queue ++ state.guiltyHalves ++
      (if state.inFlight ≠ [] then [state.inFlight] else [])
    refuse (activeHalves.any fun group => !(group ⊆ state.parent))
      "split sets must be subsets of their parent"
    refuse (!disjoint activeHalves) "active split sets must be disjoint"
    refuse (state.pending.any fun group => group.any (· ∈ state.parent))
      "pending sets must be disjoint from the active parent"
    match state.queue with
    | [first, second] =>
        refuse (!(first ++ second ⊆ state.parent) ∨ !(state.parent ⊆ first ++ second))
          "a fully queued split must partition its parent"
    | _ => pure ()
  else
    refuse (state.queue ≠ [] ∨ state.guiltyHalves ≠ [] ∨ state.inFlight ≠ [] ∨
      state.level ≠ 0) "probe progress requires a parent set"
  refuse (state.pending = [] ∧ state.queue = [] ∧ state.inFlight = [])
    "probe stage has no remaining work"

/-- Every cross-field condition a persisted hunt has to meet. -/
def validateState (state : HuntState) : Except String Unit := do
  let candidates ← coreSet state.candidates "candidates" false
  let pending ← state.pending.mapM (coreSet · "pending set" false)
  let queue ← state.queue.mapM (coreSet · "queue set" false)
  let guilty ← state.guiltyHalves.mapM (coreSet · "guilty set" false)
  let inFlight ← coreSet state.inFlight "in_flight" true
  let parent ← coreSet state.parent "parent" true
  let found ← coreSet state.found "found" true
  let _ ← coreSet state.loaded "loaded" false
  let _ ← counter state.level "level"
  let _ ← counter state.noReproduce "no_reproduce"
  let _ ← counter state.launchesDone "launches_done"
  let _ ← duration state.observedFailureTime "observed_failure_time"
  refuse (state.vector.any fun entry =>
      maxInteger < entry.1 ∨ entry.2 < minOffset ∨ (maxInteger : Int) < entry.2)
    "vector must map bounded integer core IDs to bounded integer offsets"
  refuse (state.armed ∧ (state.vector = [] ∨ state.inFlight = []))
    "an armed probe requires its exact vector and live set"
  match state.workload with
  | some workload =>
      let errors := workloadErrors "workload" 0 workload
      refuse (errors ≠ []) ("; ".intercalate errors)
  | none => pure ()
  refuse (!disjoint pending) "pending sets must be disjoint"
  refuse (!disjoint queue) "queued sets must be disjoint"
  refuse (!disjoint guilty) "guilty sets must be disjoint"
  let grouped := pending ++ queue ++ guilty
  refuse (grouped.any (fun group => !(group ⊆ candidates)) ∨
      !(inFlight ++ parent ⊆ candidates))
    "search sets must be subsets of candidates"
  refuse (found.any fun core => core ∈ inFlight ++ parent ++ grouped.flatten)
    "resolved and active search sets must be disjoint"
  refuse (!(found ⊆ candidates)) "resolved search sets must be subsets of candidates"
  refuse (bitLength (candidates.length - 1) < state.level)
    "level exceeds the candidate split depth"
  refuse (state.launchesDone ≠ 0 ∧ inFlight = [])
    "launch progress requires an unanswered probe"
  match state.stage with
  | .lead => validateLead state
  | .probe => validateProbe state
  | .culprit =>
      refuse (found = [] ∨ pending ≠ [] ∨ queue ≠ [] ∨ inFlight ≠ [] ∨ parent ≠ [] ∨
        guilty ≠ []) "culprit stage requires only confirmed culprits"
  | .exhausted =>
      refuse (pending ≠ [] ∨ queue ≠ [] ∨ inFlight ≠ [] ∨ parent ≠ [] ∨ guilty ≠ [])
        "exhausted stage has unresolved work"

/-! ## The search -/

/-- Open a hunt over the cores that were carrying a live offset. -/
def begin (candidates loaded : List CoreId) (observedFailureTime : ℚ) :
    Except String HuntState := do
  let universeSet ← coreSet (sorted candidates) "candidates" false
  let loadedSet ← coreSet (sorted loaded) "loaded" false
  let observed ← duration observedFailureTime "observed_failure_time"
  let state : HuntState :=
    { stage := if leadProbe universeSet loadedSet ≠ [] then .lead else .probe
      candidates := universeSet
      pending := [universeSet]
      observedFailureTime := observed
      loaded := loadedSet }
  validateState state
  return state

/-- Move the lone cores at the head of the work-list to the culprits: a lone core
is pending only after reproducing with every other core at stock, or as the whole
live set of the crash. -/
def convictLone : List (List CoreId) → List CoreId → List (List CoreId) × List CoreId
  | [core] :: rest, found => convictLone rest (sorted (found ++ [core]))
  | pending, found => (pending, found)

/-- The exact live mask of the next probe, and the state that remembers it.  A
mask already in flight has not been answered, so it is replayed. -/
def nextLiveSet (state : HuntState) : Option (List CoreId) × HuntState :=
  if state.stage = .culprit ∨ state.stage = .exhausted then
    (none, state)
  else if state.inFlight ≠ [] then
    (some state.inFlight, state)
  else if state.stage = .lead then
    let lead := leadProbe state.candidates state.loaded
    (some lead, { state with inFlight := lead })
  else
    match state.queue with
    | next :: rest => (some next, { state with queue := rest, inFlight := next })
    | [] =>
        -- Nothing is left of the last split: lone cores are convicted, and the next group is split.
        let convicted := convictLone state.pending state.found
        match convicted.1 with
        | [] =>
            (none, { state with
              pending := []
              found := convicted.2
              stage := if convicted.2 ≠ [] then .culprit else .exhausted })
        | target :: rest =>
            let halves := split target
            let maxDepth := bitLength (state.candidates.length - 1)
            (some halves.1, { state with
              pending := rest
              found := convicted.2
              parent := target
              guiltyHalves := []
              level := min maxDepth (max 1 (maxDepth - bitLength (target.length - 1) + 1))
              queue := [halves.2]
              inFlight := halves.1 })

/-- Fold in the answer of a whole-set re-probe. -/
def recordWholeSet (state : HuntState) (reproduced : Bool) : HuntState :=
  let whole := state.parent
  let state := { state with parent := [], level := 0 }
  if reproduced then
    { state with
      found := sorted (state.found ++ whole)
      noReproduce := 0
      stage := if state.pending = [] then .culprit else state.stage }
  else
    { state with
      pending := []
      stage := if state.found ≠ [] then .culprit else .exhausted }

/-- Fold one probe's answer into the hunt. -/
def record (state : HuntState) (reproduced : Bool) (maxNoReproduce : Nat) : HuntState :=
  let probe := state.inFlight
  let state := { state with launchesDone := 0, inFlight := [] }
  if state.stage = .lead then
    if reproduced then
      { state with stage := .culprit, pending := [], found := probe }
    else
      { state with stage := .probe }
  -- The whole set was asked, which no half can be equal to.
  else if probe = state.parent then
    recordWholeSet state reproduced
  else
    let state := if reproduced then
        { state with guiltyHalves := state.guiltyHalves ++ [probe], noReproduce := 0 }
      else state
    if state.queue ≠ [] then
      state
    else
      let parent := state.parent
      let level := state.level
      let state := { state with parent := [], level := 0 }
      if state.guiltyHalves ≠ [] then
        { state with pending := state.guiltyHalves ++ state.pending, guiltyHalves := [] }
      else
        let state := { state with noReproduce := state.noReproduce + 1 }
        if maxNoReproduce ≤ state.noReproduce then
          -- Both halves stayed clean through every retry: ask the whole set once more.
          { state with parent := parent, level := level, queue := [parent] }
        else
          { state with pending := parent :: state.pending }

/-! ## What each operation does -/

section Cases

variable {state : HuntState}

theorem nextLiveSet_of_done (hdone : state.stage = .culprit ∨ state.stage = .exhausted) :
    nextLiveSet state = (none, state) := by
  rw [nextLiveSet, if_pos hdone]

theorem nextLiveSet_of_inFlight (hopen : state.stage = .lead ∨ state.stage = .probe)
    (hflight : state.inFlight ≠ []) :
    nextLiveSet state = (some state.inFlight, state) := by
  rw [nextLiveSet, if_neg (by rcases hopen with h | h <;> simp [h]), if_pos hflight]

theorem nextLiveSet_of_lead (hstage : state.stage = .lead) (hflight : state.inFlight = []) :
    nextLiveSet state =
      (some (leadProbe state.candidates state.loaded),
        { state with inFlight := leadProbe state.candidates state.loaded }) := by
  simp [nextLiveSet, hstage, hflight]

theorem nextLiveSet_of_queue (hstage : state.stage = .probe) (hflight : state.inFlight = [])
    {next : List CoreId} {rest : List (List CoreId)} (hqueue : state.queue = next :: rest) :
    nextLiveSet state = (some next, { state with queue := rest, inFlight := next }) := by
  simp [nextLiveSet, hstage, hflight, hqueue]

theorem nextLiveSet_of_empty (hstage : state.stage = .probe) (hflight : state.inFlight = [])
    (hqueue : state.queue = []) (hpending : (convictLone state.pending state.found).1 = []) :
    nextLiveSet state =
      (none, { state with
        pending := []
        found := (convictLone state.pending state.found).2
        stage := if (convictLone state.pending state.found).2 ≠ [] then .culprit
          else .exhausted }) := by
  simp [nextLiveSet, hstage, hflight, hqueue, hpending]

theorem nextLiveSet_of_pending (hstage : state.stage = .probe) (hflight : state.inFlight = [])
    (hqueue : state.queue = []) {target : List CoreId} {rest : List (List CoreId)}
    (hpending : (convictLone state.pending state.found).1 = target :: rest) :
    nextLiveSet state =
      (some (split target).1, { state with
        pending := rest
        found := (convictLone state.pending state.found).2
        parent := target
        guiltyHalves := []
        level := min (bitLength (state.candidates.length - 1))
          (max 1 (bitLength (state.candidates.length - 1) - bitLength (target.length - 1) + 1))
        queue := [(split target).2]
        inFlight := (split target).1 }) := by
  simp [nextLiveSet, hstage, hflight, hqueue, hpending]

variable {reproduced : Bool} {maxNoReproduce : Nat}

theorem record_of_lead (hstage : state.stage = .lead) :
    record state reproduced maxNoReproduce =
      if reproduced then
        { state with
          launchesDone := 0
          inFlight := []
          stage := .culprit
          pending := []
          found := state.inFlight }
      else { state with launchesDone := 0, inFlight := [], stage := .probe } := by
  simp [record, hstage]

theorem record_of_whole (hstage : state.stage = .probe)
    (hwhole : state.inFlight = state.parent) :
    record state reproduced maxNoReproduce =
      recordWholeSet { state with launchesDone := 0, inFlight := [] } reproduced := by
  simp [record, hstage, hwhole]

/-- The state once a half's answer is noted, before the split is concluded. -/
def noteHalf (state : HuntState) (reproduced : Bool) : HuntState :=
  { state with
    launchesDone := 0
    inFlight := []
    guiltyHalves := state.guiltyHalves ++ (if reproduced then [state.inFlight] else [])
    noReproduce := if reproduced then 0 else state.noReproduce }

/-- An answer with the other half still queued only notes the half. -/
theorem record_of_queue (hstage : state.stage = .probe)
    (hhalf : state.inFlight ≠ state.parent) (hqueue : state.queue ≠ []) :
    record state reproduced maxNoReproduce = noteHalf state reproduced := by
  cases reproduced <;> simp [record, noteHalf, hstage, hhalf, hqueue]

/-- Guilty halves go to the front of the work-list. -/
theorem record_of_guilty (hstage : state.stage = .probe)
    (hhalf : state.inFlight ≠ state.parent) (hqueue : state.queue = [])
    (hguilty : (noteHalf state reproduced).guiltyHalves ≠ []) :
    record state reproduced maxNoReproduce =
      { noteHalf state reproduced with
        parent := []
        level := 0
        pending := (noteHalf state reproduced).guiltyHalves ++ state.pending
        guiltyHalves := [] } := by
  cases reproduced <;> simp_all [record, noteHalf]

/-- Two clean halves are one clean round. -/
theorem record_of_clean (hstage : state.stage = .probe)
    (hhalf : state.inFlight ≠ state.parent) (hqueue : state.queue = [])
    (hguilty : (noteHalf state reproduced).guiltyHalves = []) :
    record state reproduced maxNoReproduce =
      if maxNoReproduce ≤ state.noReproduce + 1 then
        { state with
          launchesDone := 0
          inFlight := []
          noReproduce := state.noReproduce + 1
          queue := [state.parent] }
      else
        { state with
          launchesDone := 0
          inFlight := []
          noReproduce := state.noReproduce + 1
          parent := []
          level := 0
          pending := state.parent :: state.pending } := by
  cases reproduced
  · simp_all [record, noteHalf]
  · simp [noteHalf] at hguilty

end Cases

end Bisect
end Tuner
end CoreCycler
