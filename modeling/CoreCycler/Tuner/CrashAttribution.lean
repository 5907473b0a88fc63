import CoreCycler.Engine.Execution
import CoreCycler.Tuner.HuntIsolation
import CoreCycler.Tuner.Penalty
import CoreCycler.Tuner.Resume
import CoreCycler.Tuner.SurvivalEnvelope

/-!
# Attributing a crash after a reboot

After an unclean reboot the engine asks, in this order, a saved probe that was armed, the
kernel's events, and the journal for a core that was alone away from stock.  What names
nobody goes to a hunt, and evidence that contradicts itself to a pause.
-/

namespace CoreCycler
namespace Tuner

open Bisect Engine Library

/-! ## The evidence -/

/-- What the machine tells of the boot that ended. -/
structure CrashEvidence where
  /-- The core of a logical CPU. -/
  cpuToCore : Int → Option CoreId
  /-- The kernel's hardware errors. -/
  events : List MCEEvent
  /-- The kernel's journal of that boot could be read. -/
  readable : Bool
  /-- How far into its slot the last breadcrumb landed. -/
  seconds : Option ℚ

/-- The last value the tuner wrote for each core. -/
def journalValues (journal : CoJournal) : CoreId → Option Int := fun core =>
  (journal core).map JournalRow.value

/-- The offset that was live, and not proven survivable, when the machine died. -/
def journalSuspect (journal : CoJournal) (core : CoreId) : Option Int :=
  ((journal core).filter fun row => !row.survived && decide (row.value ≠ 0)).map JournalRow.value

/-- The journaled offset of a core; stock when there is none. -/
def SessionState.journaled (state : SessionState) (core : CoreId) : Int :=
  (journalValues state.engine.journal core).getD 0

/-- An event names a core that is not in the session, not journaled, or at stock. -/
def namesUntunedCore (evidence : CrashEvidence) (state : SessionState) : Bool :=
  evidence.events.any fun event =>
    decide (0 ≤ event.cpu) &&
      match evidence.cpuToCore event.cpu with
      | none => true
      | some core =>
          decide (core ∉ state.engine.coreIds) || decide (state.journaled core = 0)

/-- The cores of the session that events name. -/
def eventsByCore (evidence : CrashEvidence) (state : SessionState) : List CoreId :=
  sortedSet (evidence.events.filterMap fun event =>
    if event.cpu < 0 then none
    else (evidence.cpuToCore event.cpu).filter (· ∈ state.engine.coreIds))

/-- The cores of the session that the journal has away from stock. -/
def liveCores (state : SessionState) : List CoreId :=
  sorted (state.engine.coreIds.filter (state.journaled · ≠ 0))

/-- The sole journaled core away from stock, if there is one. -/
def soleResident (state : SessionState) : List CoreId :=
  match liveCores state with
  | [core] => [core]
  | _ => []

/-- The cores whose last write was still un-survived when the machine died. -/
def journalSuspectCores (state : SessionState) : List CoreId :=
  sortedSet
    (state.engine.coreIds.filter fun core => (journalSuspect state.engine.journal core).isSome)

/-! ## Charging -/

/-- Log a crash at the offset that was resident, and apply the penalty. -/
def chargeCrash (config : TunerConfig) (state : SessionState) (core : CoreId)
    (resident : Option Int) : SessionState :=
  match state.coreStates.find? (·.coreId = core) with
  | none => state
  | some cs =>
      let crashed := resident.getD cs.currentOffset
      let outcome := penalizeResident config cs crashed none true
      let row : TestRow := { offset := crashed, passed := false, timed := false }
      let moved :=
        { state with
          engine := state.engine.moveCore outcome.core
          testLog := Function.update state.testLog core (state.testLog core ++ [row]) }
      if outcome.paused then moved.pause else moved

/-- Crash-penalize some cores, each at its journaled offset. -/
def penalizeForensicCores (config : TunerConfig) (state : SessionState) (cores : List CoreId) :
    SessionState :=
  cores.foldl
    (fun session core => chargeCrash config session core (journalValues state.engine.journal core))
    state

/-- Penalize the cores whose offset was live and not proven survivable. -/
def handleJournalSuspects (config : TunerConfig) (state : SessionState) (suspects : List CoreId) :
    SessionState :=
  (suspects.foldl
    (fun session core => chargeCrash config session core (journalSuspect state.engine.journal core))
    state).mapCores fun cs => if cs.coreId ∈ suspects then { cs with inTest := false } else cs

/-! ## The attribution -/

/-- What the attribution leaves, and what it hands to a hunt. -/
structure CrashAttribution where
  state : SessionState
  crashed : List CoreId := []
  pendingHunt : Bool := false
  /-- `_pending_hunt_loaded`. -/
  loaded : List CoreId := []
  /-- `_pending_hunt_vector`. -/
  vector : List (CoreId × Int) := []
  /-- `_pending_hunt_mttf`. -/
  seconds : ℚ := 0

/-- Attribute a crash that no event puts to a core. -/
def attributeToJournal (config : TunerConfig) (evidence : CrashEvidence) (state : SessionState)
    (saved : Option HuntState) : CrashAttribution :=
  let inTest := (state.coreStates.filter CoreState.inTest).map CoreState.coreId
  let sole := soleResident state
  let charged := clearAllInTest (penalizeForensicCores config state sole)
  let suspects := journalSuspectCores state
  -- A core that was alone on the machine is charged without a hunt.
  if sole ≠ [] then
    { state := charged, crashed := sole }
  else if saved = none ∧ inTest = [] ∧ suspects.length = 1 ∧ liveCores state ⊆ suspects then
    { state := handleJournalSuspects config charged suspects, crashed := suspects }
  -- Several cores come into question: a hunt is left to find out.
  else if inTest ≠ [] ∨ liveCores state ≠ [] ∨ saved.isSome then
    { state := charged
      pendingHunt := true
      loaded := (saved.map (·.loaded)).getD inTest
      vector := (saved.map (·.vector)).getD
        (state.engine.topology.filterMap fun core =>
          (journalValues state.engine.journal core).map (core, ·))
      seconds := evidence.seconds.getD 0 }
  else
    { state := charged }

/-- Attribute a crash to the cores the kernel's events name, or else ask the journal. -/
def attributeToEvidence (config : TunerConfig) (evidence : CrashEvidence) (state : SessionState)
    (saved : Option HuntState) : CrashAttribution :=
  let named := eventsByCore evidence state
  if named ≠ [] then
    { state :=
        { clearAllInTest (penalizeForensicCores config state named) with unattributedCrashes := 0 }
      crashed := named }
  else
    attributeToJournal config evidence state saved

/-- A crash that is charged ends the saved hunt. -/
def CrashAttribution.dropHunt (attribution : CrashAttribution) : CrashAttribution :=
  if attribution.crashed ≠ [] then
    { attribution with state := { attribution.state with huntState := .empty } }
  else
    attribution

/-- `_attribute_crash_after_reboot`. -/
def attributeCrashAfterReboot (config : TunerConfig) (evidence : CrashEvidence)
    (state : SessionState) : CrashAttribution :=
  match state.huntState.fromJson with
  | .error _ => { state := state.pause }
  | .ok saved =>
      match saved.filter (·.armed) with
      | some hunt =>
          -- An armed probe is the experiment itself.
          { state := clearAllInTest state
            pendingHunt := true
            loaded := hunt.loaded
            vector := hunt.vector }
      | none =>
          if !evidence.readable || namesUntunedCore evidence state then
            { state := state.pause }
          else
            (attributeToEvidence config evidence state saved).dropHunt

/-! ## What charging does to a core -/

/-- The two states of a core differ in the in-test mark only. -/
def SameSearch (before after : CoreState) : Prop := ∃ inTest, after = { before with inTest }

/-- Charging `cores` leaves every other core alone, and bounds each of them at the offset it
had in the journal. -/
def Charged (config : TunerConfig) (journaled : CoreId → Int) (cores : List CoreId)
    (before after : CoreState) : Prop :=
  after.coreId = before.coreId ∧ (before.coreId ∉ cores → after = before) ∧
    (before.coreId ∈ cores → ∃ bound, after.backoffFailBound = some bound ∧
      config.isMoreAggressive bound (journaled before.coreId) = false)

variable {config : TunerConfig} {evidence : CrashEvidence} {state : SessionState}
  {cores : List CoreId} {core : CoreId}

theorem coreStates_pause (state : SessionState) : state.pause.coreStates = state.coreStates := by
  unfold SessionState.pause
  split
  · rfl
  · rfl

/-- A penalty away from stock bounds the core at the offset it crashed at, or short of it. -/
theorem penalizeResident_failBound (hvalid : config.Valid) (cs : CoreState) {resident : Int}
    (htuned : resident ≠ 0) :
    ∃ bound, (penalizeResident config cs resident none true).core.backoffFailBound = some bound ∧
      config.isMoreAggressive bound resident = false := by
  have hdir := hvalid.direction
  obtain ⟨bound, hbound, hle, -, -⟩ :=
    recordCrash_backoffFailBound hdir { cs with currentOffset := resident }
  refine ⟨bound, ?_, ?_⟩
  · rw [penalizeResident, penalty_backoffFailBound htuned]
    exact hbound
  · rw [Bool.eq_false_iff, ne_eq, TunerConfig.isMoreAggressive_iff hdir]
    exact not_lt.mpr hle

theorem penalizeResident_coreId (cs : CoreState) (resident : Int) (steps : Option Int)
    (countCrash : Bool) :
    (penalizeResident config cs resident steps countCrash).core.coreId = cs.coreId := by
  unfold penalizeResident applyCrashPenalty recordCrash retreatFromCrash demoteBest
  dsimp only
  split_ifs <;> rfl

/-- Charging one core. -/
theorem charged_chargeCrash (hvalid : config.Valid) {journaled : CoreId → Int}
    (htuned : journaled core ≠ 0) (state : SessionState) :
    List.Forall₂ (Charged config journaled [core]) state.coreStates
      (chargeCrash config state core (some (journaled core))).coreStates := by
  have hother : ∀ cs : CoreState, cs.coreId ≠ core → Charged config journaled [core] cs cs :=
    fun cs hne => ⟨rfl, fun _ => rfl, fun hmem => absurd (List.mem_singleton.mp hmem) hne⟩
  unfold chargeCrash
  split
  · next hnone =>
      rw [List.forall₂_same]
      intro cs hcs
      exact hother cs (by simpa using List.find?_eq_none.mp hnone cs hcs)
  · next found hfound =>
      have hid : found.coreId = core := by simpa using List.find?_some hfound
      have hcharged : List.Forall₂ (Charged config journaled [core]) state.coreStates
          (state.engine.moveCore
            (penalizeResident config found (journaled core) none true).core).coreStates := by
        rw [JournalState.moveCore, List.forall₂_map_right_iff]
        show List.Forall₂ _ state.coreStates state.coreStates
        rw [List.forall₂_same]
        intro cs hcs
        rw [penalizeResident_coreId, hid]
        split
        · next hsame =>
            refine ⟨?_, fun hnot => absurd (by simp [hsame]) hnot, fun _ => ?_⟩
            · rw [penalizeResident_coreId, hid, hsame]
            · rw [hsame]
              exact penalizeResident_failBound hvalid found htuned
        · next hne => exact hother cs hne
      dsimp only
      split
      · rw [coreStates_pause]
        exact hcharged
      · exact hcharged

theorem forall₂_comp {first second third : CoreState → CoreState → Prop}
    (hcomp : ∀ before middle after, first before middle → second middle after →
      third before after) {before middle after : List CoreState}
    (hfirst : List.Forall₂ first before middle) (hsecond : List.Forall₂ second middle after) :
    List.Forall₂ third before after := by
  induction hfirst generalizing after with
  | nil =>
      cases hsecond
      exact .nil
  | cons hhead _ ih =>
      cases hsecond with
      | cons hnext hrest => exact .cons (hcomp _ _ _ hhead hnext) (ih hrest)

/-- Charging several cores. -/
theorem charged_foldl (hvalid : config.Valid) {journaled : CoreId → Int}
    {resident : CoreId → Option Int} {cores : List CoreId} (hnodup : cores.Nodup)
    (htuned : ∀ core ∈ cores, journaled core ≠ 0 ∧ resident core = some (journaled core))
    (state : SessionState) :
    List.Forall₂ (Charged config journaled cores) state.coreStates
      (cores.foldl (fun session core => chargeCrash config session core (resident core))
        state).coreStates := by
  induction cores generalizing state with
  | nil =>
      rw [List.foldl_nil, List.forall₂_same]
      exact fun cs _ => ⟨rfl, fun _ => rfl, fun hmem => absurd hmem List.not_mem_nil⟩
  | cons first rest ih =>
      obtain ⟨hfirst, hrest⟩ := List.nodup_cons.mp hnodup
      obtain ⟨hlive, hresident⟩ := htuned first List.mem_cons_self
      have hone := charged_chargeCrash hvalid hlive state
      have hothers := ih hrest (fun core hcore => htuned core (List.mem_cons_of_mem _ hcore))
        (chargeCrash config state first (some (journaled first)))
      rw [List.foldl_cons, hresident]
      refine forall₂_comp ?_ hone hothers
      rintro before middle after ⟨hid, hkept, hbound⟩ ⟨hid', hkept', hbound'⟩
      refine ⟨hid'.trans hid, fun hnot => ?_, fun hmem => ?_⟩
      · obtain ⟨hne, hnotrest⟩ := not_or.mp (mt List.mem_cons.mpr hnot)
        rw [hkept' (hid ▸ hnotrest), hkept (by simpa using hne)]
      · rcases List.mem_cons.mp hmem with hsame | hin
        · rw [hkept' (by rw [hid, hsame]; exact hfirst)]
          exact hbound (by simp [hsame])
        · rw [← hid]
          exact hbound' (hid ▸ hin)

/-- Clearing the marks changes nothing that the search looks at. -/
theorem sameSearch_clearAllInTest (state : SessionState) :
    List.Forall₂ SameSearch state.coreStates (clearAllInTest state).coreStates := by
  rw [clearAllInTest, SessionState.mapCores_coreStates, List.forall₂_map_right_iff,
    List.forall₂_same]
  exact fun cs _ => ⟨false, rfl⟩

theorem sameSearch_refl (coreStates : List CoreState) :
    List.Forall₂ SameSearch coreStates coreStates := by
  rw [List.forall₂_same]
  exact fun cs _ => ⟨cs.inTest, rfl⟩

/-! ## The attribution -/

/-- An event names the core, which was away from stock. -/
def NamedAwayFromStock (evidence : CrashEvidence) (state : SessionState) (core : CoreId) : Prop :=
  (∃ event ∈ evidence.events, 0 ≤ event.cpu ∧ evidence.cpuToCore event.cpu = some core) ∧
    state.journaled core ≠ 0

/-- No event names a core, and of the cores of the session this one alone was away from
stock. -/
def SoleAwayFromStock (evidence : CrashEvidence) (state : SessionState) (core : CoreId) : Prop :=
  (∀ event ∈ evidence.events, event.cpu < 0) ∧ state.journaled core ≠ 0 ∧
    ∀ other ∈ state.engine.coreIds, state.journaled other ≠ 0 → other = core

/-- The evidence that stops the attribution: a saved probe that was armed, a kernel journal
that cannot be read, or an event that names a core at stock, not journaled or not mapped. -/
def Inconclusive (evidence : CrashEvidence) (state : SessionState) : Prop :=
  (∃ hunt, state.huntState.fromJson = .ok (some hunt) ∧ hunt.armed = true) ∨
    evidence.readable = false ∨
    ∃ event ∈ evidence.events, 0 ≤ event.cpu ∧
      ∀ core, evidence.cpuToCore event.cpu = some core →
        core ∉ state.engine.coreIds ∨ state.journaled core = 0

/-- Something was at risk: a core was live or in test, or a hunt was saved. -/
def AtRisk (state : SessionState) : Prop :=
  (∃ core ∈ state.engine.coreIds, state.journaled core ≠ 0) ∨
    (∃ cs ∈ state.coreStates, cs.inTest = true) ∨
    ∃ hunt, state.huntState.fromJson = .ok (some hunt)

/-- What an attribution does to a core: nothing the search looks at, unless it is charged, and
then it is bounded at the offset it had in the journal. -/
def Attributed (config : TunerConfig) (state : SessionState) (crashed : List CoreId)
    (before after : CoreState) : Prop :=
  after.coreId = before.coreId ∧ (before.coreId ∉ crashed → SameSearch before after) ∧
    (before.coreId ∈ crashed → ∃ bound, after.backoffFailBound = some bound ∧
      config.isMoreAggressive bound (state.journaled before.coreId) = false)

theorem attributed_of_same {before after : List CoreState}
    (hsame : List.Forall₂ SameSearch before after) :
    List.Forall₂ (Attributed config state []) before after := by
  refine hsame.imp ?_
  rintro cs _ ⟨inTest, rfl⟩
  exact ⟨rfl, fun _ => ⟨inTest, rfl⟩, fun hmem => absurd hmem List.not_mem_nil⟩

theorem attributed_of_charged {before middle after : List CoreState}
    (hcharged : List.Forall₂ (Charged config state.journaled cores) before middle)
    (hsame : List.Forall₂ SameSearch middle after) :
    List.Forall₂ (Attributed config state cores) before after := by
  refine forall₂_comp ?_ hcharged hsame
  rintro cs middle _ ⟨hid, hkept, hbound⟩ ⟨inTest, rfl⟩
  refine ⟨hid, fun hnot => ?_, hbound⟩
  rw [hkept hnot]
  exact ⟨inTest, rfl⟩

theorem attributed_after_same {before middle after : List CoreState}
    (hsame : List.Forall₂ SameSearch before middle)
    (hattributed : List.Forall₂ (Attributed config state cores) middle after) :
    List.Forall₂ (Attributed config state cores) before after := by
  refine forall₂_comp ?_ hsame hattributed
  rintro cs _ after ⟨inTest, rfl⟩ ⟨hid, hkept, hbound⟩
  refine ⟨hid, fun hnot => ?_, hbound⟩
  obtain ⟨mark, rfl⟩ := hkept hnot
  exact ⟨mark, rfl⟩

theorem journalValues_of_live (hlive : state.journaled core ≠ 0) :
    journalValues state.engine.journal core = some (state.journaled core) := by
  unfold SessionState.journaled at hlive ⊢
  cases hvalue : journalValues state.engine.journal core with
  | none => simp [hvalue] at hlive
  | some value => rfl

/-- A suspect was away from stock. -/
theorem journalSuspect_eq {value : Int}
    (hsuspect : journalSuspect state.engine.journal core = some value) :
    state.journaled core ≠ 0 ∧ value = state.journaled core := by
  unfold journalSuspect at hsuspect
  obtain ⟨row, hrow, rfl⟩ := Option.map_eq_some_iff.mp hsuspect
  obtain ⟨hjournal, hkept⟩ := Option.filter_eq_some_iff.mp hrow
  have hvalue : state.journaled core = row.value := by
    simp [SessionState.journaled, journalValues, hjournal]
  rw [hvalue]
  refine ⟨?_, rfl⟩
  simp only [Bool.and_eq_true, decide_eq_true_eq] at hkept
  exact hkept.2

/-- The cores charged at their journaled offsets. -/
theorem attributed_penalizeForensicCores (hvalid : config.Valid) (hnodup : cores.Nodup)
    (hlive : ∀ core ∈ cores, state.journaled core ≠ 0) :
    List.Forall₂ (Attributed config state cores) state.coreStates
      (clearAllInTest (penalizeForensicCores config state cores)).coreStates := by
  refine attributed_of_charged ?_ (sameSearch_clearAllInTest _)
  exact charged_foldl hvalid hnodup
    (fun core hcore => ⟨hlive core hcore, journalValues_of_live (hlive core hcore)⟩) state

/-- A pause is heeded: the session is neither closed for a platform fault nor quarantined. -/
def Pausable (state : SessionState) : Prop :=
  state.platformFault = false ∧ state.engine.quarantined = false

/-- What an attribution has to meet. -/
structure Sound (config : TunerConfig) (evidence : CrashEvidence) (state : SessionState)
    (attribution : CrashAttribution) : Prop where
  cores : List.Forall₂ (Attributed config state attribution.crashed) state.coreStates
    attribution.state.coreStates
  crashed : ∀ core ∈ attribution.crashed,
    NamedAwayFromStock evidence state core ∨ SoleAwayFromStock evidence state core
  pending : Pausable state → attribution.crashed = [] → AtRisk state →
    attribution.state.paused = false → attribution.pendingHunt = true

theorem mem_sortedSet {cores : List CoreId} : core ∈ sortedSet cores ↔ core ∈ cores := by
  rw [sortedSet, List.mem_insertionSort, List.mem_dedup]

theorem mem_liveCores :
    core ∈ liveCores state ↔ core ∈ state.engine.coreIds ∧ state.journaled core ≠ 0 := by
  rw [liveCores, sorted, List.mem_insertionSort, List.mem_filter, decide_eq_true_eq]

theorem nodup_soleResident (state : SessionState) : (soleResident state).Nodup := by
  unfold soleResident
  split
  · exact List.nodup_singleton _
  · exact List.nodup_nil

/-- The sole resident is the only live core of the session. -/
theorem sole_of_mem_soleResident (hcore : core ∈ soleResident state) :
    state.journaled core ≠ 0 ∧
      ∀ other ∈ state.engine.coreIds, state.journaled other ≠ 0 → other = core := by
  unfold soleResident at hcore
  split at hcore
  · next sole hlive =>
      cases List.mem_singleton.mp hcore
      refine ⟨(mem_liveCores.mp (by simp [hlive])).2, fun other hother haway => ?_⟩
      have hmem : other ∈ liveCores state := mem_liveCores.mpr ⟨hother, haway⟩
      simpa [hlive] using hmem
  · cases hcore

theorem mem_journalSuspectCores (hcore : core ∈ journalSuspectCores state) :
    state.journaled core ≠ 0 ∧
      journalSuspect state.engine.journal core = some (state.journaled core) := by
  obtain ⟨-, hsome⟩ := List.mem_filter.mp (mem_sortedSet.mp hcore)
  obtain ⟨value, hvalue⟩ := Option.isSome_iff_exists.mp hsome
  obtain ⟨haway, hsame⟩ := journalSuspect_eq hvalue
  exact ⟨haway, hsame ▸ hvalue⟩

/-- Nobody is charged, and the search of every core stays as it was. -/
theorem attributed_clearAllInTest (state : SessionState) :
    List.Forall₂ (Attributed config state []) state.coreStates
      (clearAllInTest state).coreStates :=
  attributed_of_same (sameSearch_clearAllInTest state)

/-- The suspects charged at their journaled offsets. -/
theorem attributed_handleJournalSuspects (hvalid : config.Valid) :
    List.Forall₂ (Attributed config state (journalSuspectCores state)) state.coreStates
      (handleJournalSuspects config (clearAllInTest state)
        (journalSuspectCores state)).coreStates := by
  have hcharged := charged_foldl hvalid (nodup_sortedSet _)
    (fun _ hcore => @mem_journalSuspectCores state _ hcore) (clearAllInTest state)
  refine attributed_after_same (sameSearch_clearAllInTest state) (attributed_of_charged hcharged ?_)
  rw [handleJournalSuspects, SessionState.mapCores_coreStates, List.forall₂_map_right_iff]
  refine List.forall₂_same.mpr ?_
  intro cs _
  split
  · exact ⟨false, rfl⟩
  · exact ⟨cs.inTest, rfl⟩

/-- The journal is asked when no event names a core. -/
theorem sound_attributeToJournal (hvalid : config.Valid) {saved : Option HuntState}
    (hsaved : state.huntState.fromJson = .ok saved)
    (hunnamed : ∀ event ∈ evidence.events, event.cpu < 0) :
    Sound config evidence state (attributeToJournal config evidence state saved) := by
  unfold attributeToJournal
  dsimp only
  split
  · next hsole =>
      refine ⟨?_, fun core hcore => .inr ⟨hunnamed, sole_of_mem_soleResident hcore⟩,
        fun _ hnobody => absurd hnobody hsole⟩
      exact attributed_penalizeForensicCores hvalid (nodup_soleResident state)
        fun core hcore => (sole_of_mem_soleResident hcore).1
  next hsole =>
  rw [show soleResident state = [] from not_not.mp hsole]
  split
  · next hsuspects =>
      obtain ⟨-, -, hone, hlive⟩ := hsuspects
      refine ⟨attributed_handleJournalSuspects hvalid, fun core hcore => .inr ?_,
        fun _ hnobody => ?_⟩
      · refine ⟨hunnamed, (mem_journalSuspectCores hcore).1, fun other hother haway => ?_⟩
        obtain ⟨suspect, hsuspect⟩ := List.length_eq_one_iff.mp hone
        have hmem : other ∈ journalSuspectCores state := hlive (mem_liveCores.mpr ⟨hother, haway⟩)
        rw [hsuspect, List.mem_singleton] at hmem hcore
        rw [hmem, hcore]
      · rw [show journalSuspectCores state = [] from hnobody] at hone
        cases hone
  · split
    · exact ⟨attributed_clearAllInTest state, fun core hcore => absurd hcore List.not_mem_nil,
        fun _ _ _ _ => rfl⟩
    · next hidle =>
        refine ⟨attributed_clearAllInTest state, fun core hcore => absurd hcore List.not_mem_nil,
          fun _ _ hrisk _ => absurd ?_ hidle⟩
        rcases hrisk with ⟨core, hcore, haway⟩ | ⟨cs, hcs, hinTest⟩ | ⟨hunt, hhunt⟩
        · exact .inr (.inl (List.ne_nil_of_mem (mem_liveCores.mpr ⟨hcore, haway⟩)))
        · refine .inl (List.ne_nil_of_mem (List.mem_map.mpr ⟨cs, ?_, rfl⟩))
          exact List.mem_filter.mpr ⟨hcs, hinTest⟩
        · refine .inr (.inr ?_)
          rw [show saved = some hunt from Except.ok.inj (hsaved.symm.trans hhunt)]
          rfl

/-- The kernel's events are asked once they can be read, and name no core at stock. -/
theorem named_of_mem_eventsByCore (htuned : namesUntunedCore evidence state = false)
    (hcore : core ∈ eventsByCore evidence state) : NamedAwayFromStock evidence state core := by
  rw [eventsByCore, mem_sortedSet, List.mem_filterMap] at hcore
  obtain ⟨event, hevent, hnames⟩ := hcore
  split_ifs at hnames with hcpu
  obtain ⟨hmapped, -⟩ := Option.filter_eq_some_iff.mp hnames
  refine ⟨⟨event, hevent, not_lt.mp hcpu, hmapped⟩, fun hstock => ?_⟩
  have htuned' := List.any_eq_false.mp htuned event hevent
  simp [not_lt.mp hcpu, hmapped, hstock] at htuned'

/-- When the events name no core, none of them has a CPU. -/
theorem unnamed_of_eventsByCore (htuned : namesUntunedCore evidence state = false)
    (hnone : eventsByCore evidence state = []) : ∀ event ∈ evidence.events, event.cpu < 0 := by
  intro event hevent
  by_contra hcpu
  have htuned' := List.any_eq_false.mp htuned event hevent
  cases hmapped : evidence.cpuToCore event.cpu with
  | none => simp [not_lt.mp hcpu, hmapped] at htuned'
  | some core =>
      have hin : core ∈ state.engine.coreIds := by
        simp [not_lt.mp hcpu, hmapped] at htuned'
        exact htuned'.1
      have hmem : core ∈ eventsByCore evidence state := by
        rw [eventsByCore, mem_sortedSet, List.mem_filterMap]
        exact ⟨event, hevent, by simp [hcpu, hmapped, hin]⟩
      rw [hnone] at hmem
      cases hmem

/-- An event names a core at stock, not journaled, not mapped or not in the session. -/
theorem namesUntunedCore_iff : namesUntunedCore evidence state = true ↔
    ∃ event ∈ evidence.events, 0 ≤ event.cpu ∧
      ∀ core, evidence.cpuToCore event.cpu = some core →
        core ∉ state.engine.coreIds ∨ state.journaled core = 0 := by
  rw [namesUntunedCore, List.any_eq_true]
  refine exists_congr fun event => and_congr_right fun _ => ?_
  rw [Bool.and_eq_true, decide_eq_true_eq]
  refine and_congr_right fun _ => ?_
  cases evidence.cpuToCore event.cpu with
  | none => simp
  | some core => simp

/-- The attribution stops exactly at the evidence that is inconclusive. -/
theorem inconclusive_iff {saved : Option HuntState}
    (hsaved : state.huntState.fromJson = .ok saved) :
    Inconclusive evidence state ↔ (saved.filter (·.armed)).isSome ∨
      (!evidence.readable || namesUntunedCore evidence state) = true := by
  have harmed : (∃ hunt, state.huntState.fromJson = .ok (some hunt) ∧ hunt.armed = true) ↔
      (saved.filter (·.armed)).isSome := by
    rw [hsaved]
    cases saved with
    | none => simp
    | some hunt => simp [Option.filter]
  rw [Inconclusive, harmed, ← namesUntunedCore_iff, Bool.or_eq_true, Bool.not_eq_true']

/-- Dropping the saved hunt touches no core. -/
theorem Sound.dropHunt {attribution : CrashAttribution}
    (hsound : Sound config evidence state attribution) :
    Sound config evidence state attribution.dropHunt := by
  unfold CrashAttribution.dropHunt
  split
  · exact ⟨hsound.cores, hsound.crashed, hsound.pending⟩
  · exact hsound

/-- The events come before the journal. -/
theorem sound_attributeToEvidence (hvalid : config.Valid) {saved : Option HuntState}
    (hsaved : state.huntState.fromJson = .ok saved)
    (htuned : namesUntunedCore evidence state = false) :
    Sound config evidence state (attributeToEvidence config evidence state saved) := by
  unfold attributeToEvidence
  dsimp only
  split
  · next hnamed =>
      refine ⟨?_, fun core hcore => .inl (named_of_mem_eventsByCore htuned hcore),
        fun _ hnobody => absurd hnobody hnamed⟩
      exact attributed_penalizeForensicCores hvalid (nodup_sortedSet _)
        fun core hcore => (named_of_mem_eventsByCore htuned hcore).2
  · next hnobody =>
      exact sound_attributeToJournal hvalid hsaved
        (unnamed_of_eventsByCore htuned (not_not.mp hnobody))

/-- An attribution that pauses changes nothing. -/
theorem sound_pause : Sound config evidence state { state := state.pause } where
  cores := by
    show List.Forall₂ _ _ state.pause.coreStates
    rw [coreStates_pause]
    exact attributed_of_same (sameSearch_refl _)
  crashed := fun core hcore => absurd hcore List.not_mem_nil
  pending := by
    intro hpausable _ _ hpaused
    simp [SessionState.pause, hpausable.1, hpausable.2] at hpaused

/-- **Crash attribution never guesses.** -/
theorem sound_attributeCrashAfterReboot (hvalid : config.Valid) :
    Sound config evidence state (attributeCrashAfterReboot config evidence state) ∧
      (Inconclusive evidence state →
        (attributeCrashAfterReboot config evidence state).crashed = []) := by
  unfold attributeCrashAfterReboot
  split
  · exact ⟨sound_pause, fun _ => rfl⟩
  next saved hsaved =>
  rw [inconclusive_iff hsaved]
  split
  · refine ⟨⟨attributed_clearAllInTest state, ?_, fun _ _ _ _ => rfl⟩, fun _ => rfl⟩
    exact fun core hcore => absurd hcore List.not_mem_nil
  next hunarmed =>
  split
  · exact ⟨sound_pause, fun _ => rfl⟩
  next hclear =>
  refine ⟨?_, fun hstop => ?_⟩
  · simp only [Bool.or_eq_true, not_or, Bool.not_eq_true] at hclear
    exact (sound_attributeToEvidence hvalid hsaved hclear.2).dropHunt
  · rw [hunarmed] at hstop
    exact absurd hstop (by simpa using hclear)

/-! ## Cores outside the session -/

/-- The journal has every core outside the session at stock. -/
def OutsideAtStock (state : JournalState) : Prop :=
  ∀ core ∉ state.coreIds, ∀ row, state.journal core = some row → row.value = 0

/-- The writes of the engine: the masks, the baselines and the vector of a hunt reach the cores
of the session, and whatever else is written is stock. -/
def OnSession (state : JournalState) : JournalEvent → Prop
  | .write core offset _ => core ∈ state.coreIds ∨ offset = 0
  | _ => True

section Outside

variable {state next : JournalState}

theorem OutsideAtStock.writeCoVerified (houtside : OutsideAtStock state) {offset : Int}
    (hwrite : core ∈ state.coreIds ∨ offset = 0) (accepted : Bool) :
    OutsideAtStock (writeCoVerified config state core offset accepted) := by
  intro other hother row hrow
  rw [JournalState.coreIds, writeCoVerified_coreStates] at hother
  by_cases hrange : state.coRange.1 ≤ offset ∧ offset ≤ state.coRange.2
  · rw [writeCoVerified_journal hrange, journalCoIntent] at hrow
    by_cases hsame : other = core
    · rw [hsame, Function.update_self] at hrow
      have hstock := hwrite.resolve_left (hsame ▸ hother)
      rw [← Option.some.inj hrow]
      exact hstock
    · rw [Function.update_of_ne hsame] at hrow
      exact houtside other hother row hrow
  · rw [writeCoVerified_refused hrange] at hrow
    exact houtside other hother row hrow

theorem OutsideAtStock.restoreStockVerified (houtside : OutsideAtStock state)
    (accepted : CoreId → Bool) : OutsideAtStock (restoreStockVerified config state accepted) := by
  rw [Tuner.restoreStockVerified]
  generalize state.topology = cores
  induction cores generalizing state with
  | nil => exact houtside
  | cons core rest ih =>
      rw [List.foldl_cons]
      exact ih (houtside.writeCoVerified (.inr rfl) _)

/-- No event of the engine leaves a core outside the session away from stock. -/
theorem OutsideAtStock.step (houtside : OutsideAtStock state) {event : JournalEvent}
    (hwrites : OnSession state event) (hstep : stepJournal config state event = some next) :
    OutsideAtStock next := by
  cases event with
  | move cs =>
      cases Option.some.inj hstep
      intro other hother
      rw [moveCore_coreIds] at hother
      exact houtside other hother
  | write core offset accepted =>
      cases Option.some.inj hstep
      exact houtside.writeCoVerified hwrites accepted
  | revert core accepted =>
      cases Option.some.inj hstep
      unfold revertCoreToBaseline
      split
      · exact houtside
      · next cs hcs =>
          refine houtside.writeCoVerified (.inl ?_) accepted
          have hid : cs.coreId = core := by simpa using List.find?_some hcs
          exact List.mem_map.mpr ⟨cs, List.mem_of_find?_eq_some hcs, hid⟩
  | testFinished unattributed foreign =>
      rw [stepJournal, Option.ite_none_right_eq_some] at hstep
      cases Option.some.inj hstep.2
      unfold keepSurvived
      split
      · exact houtside
      · intro other hother row hrow
        -- A survival marks rows of the journal, and changes no value in them.
        obtain ⟨old, hold, hsame⟩ := Option.map_eq_some_iff.mp hrow
        have hstock := houtside other hother old hold
        split at hsame
        · exact hsame ▸ hstock
        · exact hsame ▸ hstock
  | quarantine accepted =>
      cases Option.some.inj hstep
      intro other hother
      rw [quarantineSession_coreIds] at hother
      refine houtside.restoreStockVerified accepted other ?_
      rwa [JournalState.coreIds, restoreStockVerified_coreStates]
  | resume sameProcess =>
      cases Option.some.inj hstep
      intro other hother
      rw [resumeJournal_coreIds] at hother
      rw [resumeJournal_journal]
      exact houtside other hother

/-- From an empty journal on, the writes of the engine keep every core outside the session at
stock. -/
theorem outsideAtStock_of_reachable {watch : EnvelopeWatch}
    (hreach : StepSystem.ReachableBy (journalSystem config)
      (fun watch event => OnSession watch.engine event) watch) :
    OutsideAtStock watch.engine := by
  refine @StepSystem.ReachableBy.invariant _ _ _ _
    (fun watch => OutsideAtStock watch.engine) ?_ ?_ _ hreach
  · rintro _ ⟨topology, coRange, coreStates, rfl⟩ core - row hrow
    cases hrow
  · intro watch event _ houtside hwrites hstep
    obtain ⟨next, hnext, rfl⟩ := Option.map_eq_some_iff.mp hstep
    exact OutsideAtStock.step houtside hwrites hnext

end Outside

/-! ## The guarantee -/

/-- Whatever the journal, the marks, the saved hunt and the kernel say after an unclean reboot,
the attribution changes the search of a core only if an event names it away from stock, or no
event names a core and of the session it alone was away from stock.  Evidence that is inconclusive
changes no core; what charges nobody while something was at risk goes to a hunt, or to a pause
where the session is not closed; and a core that is charged is bounded at the offset it had in the
journal, or short of it.

Where the journal has the cores outside the session at stock, as the engine leaves them
(`outsideAtStock_of_reachable`), a core that is alone away from stock in the session is so among all. -/
theorem crash_attribution_never_guesses (hvalid : config.Valid) :
    let attribution := attributeCrashAfterReboot config evidence state
    List.Forall₂
        (fun before after => ¬SameSearch before after →
          NamedAwayFromStock evidence state before.coreId ∨
            SoleAwayFromStock evidence state before.coreId ∧
              (OutsideAtStock state.engine → ∀ other, state.journaled other ≠ 0 →
                other = before.coreId))
        state.coreStates attribution.state.coreStates ∧
      (Inconclusive evidence state →
        List.Forall₂ SameSearch state.coreStates attribution.state.coreStates) ∧
      (Pausable state → attribution.crashed = [] → AtRisk state →
        attribution.state.paused = false → attribution.pendingHunt = true) ∧
      List.Forall₂
        (fun before after => before.coreId ∈ attribution.crashed →
          ∃ bound, after.backoffFailBound = some bound ∧
            config.isMoreAggressive bound (state.journaled before.coreId) = false)
        state.coreStates attribution.state.coreStates := by
  intro attribution
  obtain ⟨⟨hcores, hcrashed, hpending⟩, hstops⟩ := sound_attributeCrashAfterReboot hvalid
  -- With everything outside at stock, a core alone in the session is alone on the machine.
  have hsole : ∀ core, SoleAwayFromStock evidence state core → OutsideAtStock state.engine →
      ∀ other, state.journaled other ≠ 0 → other = core := by
    intro core ⟨_, _, halone⟩ houtside other haway
    refine halone other (not_not.mp fun hother => haway ?_) haway
    obtain ⟨row, hrow, hvalue⟩ := Option.map_eq_some_iff.mp (journalValues_of_live haway)
    rw [← hvalue]
    exact houtside other hother row hrow
  refine ⟨hcores.imp ?_, fun hstop => hcores.imp ?_, hpending, hcores.imp ?_⟩
  · intro before after ⟨_, hkept, _⟩ hchanged
    have hcharged := hcrashed before.coreId (not_not.mp (mt hkept hchanged))
    exact hcharged.imp_right fun halone => ⟨halone, hsole before.coreId halone⟩
  · intro before after ⟨_, hkept, _⟩
    refine hkept ?_
    rw [hstops hstop]
    exact List.not_mem_nil
  · exact fun before after hcore => hcore.2.2

/-- Core 0 died at −20, and the kernel names it. -/
def namedCrash : SessionState where
  engine :=
    { topology := [0, 1]
      coRange := (-30, 30)
      coreStates := [{ coreId := 0, currentOffset := -18 }, { coreId := 1 }]
      journal := fun core =>
        if core = 0 then some { value := -20, survived := false }
        else some { value := -10, survived := true } }

/-- The evidence of `namedCrash`. -/
def namedEvidence : CrashEvidence where
  cpuToCore := fun cpu => if cpu = 0 then some 0 else if cpu = 1 then some 1 else none
  events := [{ cpu := 0, message := "machine check" }]
  readable := true
  seconds := none

/-- A kernel journal that tells of no hardware error. -/
def silentEvidence : CrashEvidence := { namedEvidence with events := [] }

/-- Core 0 alone is charged, and bounded at −20 or short of it; where no event names it, a hunt is
left to find out. -/
theorem crash_attribution_never_guesses_named :
    (attributeCrashAfterReboot {} namedEvidence namedCrash).crashed = [0] ∧
    List.Forall₂
      (fun before after => before.coreId ∈
          (attributeCrashAfterReboot {} namedEvidence namedCrash).crashed →
        ∃ bound, after.backoffFailBound = some bound ∧
          ({} : TunerConfig).isMoreAggressive bound (namedCrash.journaled before.coreId) = false)
      namedCrash.coreStates
      (attributeCrashAfterReboot {} namedEvidence namedCrash).state.coreStates ∧
    (attributeCrashAfterReboot {} silentEvidence namedCrash).pendingHunt = true :=
  ⟨by decide +kernel, (crash_attribution_never_guesses (by decide +kernel)).2.2.2,
    (crash_attribution_never_guesses (by decide +kernel)).2.2.1 ⟨rfl, rfl⟩ (by decide +kernel)
      (.inl ⟨0, by decide, by decide⟩) (by decide +kernel)⟩

/-! ## Closed sessions and other journals -/

/-- A session that was closed for a platform fault. -/
def closedCrash : SessionState := { namedCrash with platformFault := true }

/-- A kernel journal that cannot be read. -/
def noEvidence : CrashEvidence := { silentEvidence with readable := false }

/-- A journal with a core that is not in the session. -/
def strayCrash : SessionState where
  engine :=
    { topology := [0, 1, 2]
      coRange := (-30, 30)
      coreStates := [{ coreId := 0, currentOffset := -18 }, { coreId := 1 }]
      journal := fun core =>
        if core = 0 then some { value := -20, survived := false }
        else if core = 2 then some { value := -10, survived := true }
        else none }

/-- A closed session ignores the pause, and nobody is charged or hunted; and a core is charged
although the journal has another one away from stock. -/
theorem closed_and_stray_crashes :
    (¬ ∀ (config : TunerConfig) (evidence : CrashEvidence) (state : SessionState), config.Valid →
      (attributeCrashAfterReboot config evidence state).crashed = [] → AtRisk state →
      (attributeCrashAfterReboot config evidence state).state.paused = false →
      (attributeCrashAfterReboot config evidence state).pendingHunt = true) ∧
    ¬ ∀ (config : TunerConfig) (evidence : CrashEvidence) (state : SessionState), config.Valid →
      List.Forall₂
        (fun before after => ¬SameSearch before after →
          NamedAwayFromStock evidence state before.coreId ∨
            (∀ event ∈ evidence.events, event.cpu < 0) ∧
              ∀ other, state.journaled other ≠ 0 ↔ other = before.coreId)
        state.coreStates (attributeCrashAfterReboot config evidence state).state.coreStates := by
  refine ⟨fun hclaim => ?_, fun hclaim => ?_⟩
  · have hpending := hclaim {} noEvidence closedCrash (by decide +kernel) (by decide +kernel)
      (.inl ⟨0, by decide, by decide⟩) (by decide +kernel)
    exact absurd hpending (by decide +kernel)
  · have hcores := hclaim {} silentEvidence strayCrash (by decide +kernel)
    have hmoved : ∀ hlength, ((attributeCrashAfterReboot {} silentEvidence
        strayCrash).state.coreStates.get ⟨0, hlength⟩).currentOffset ≠ -18 := by
      decide +kernel
    have hlength : 0 < (attributeCrashAfterReboot {} silentEvidence
        strayCrash).state.coreStates.length := by
      decide +kernel
    have hchanged : ¬SameSearch (strayCrash.coreStates.get ⟨0, by decide⟩)
        ((attributeCrashAfterReboot {} silentEvidence strayCrash).state.coreStates.get
          ⟨0, hlength⟩) := by
      rintro ⟨inTest, hsame⟩
      refine hmoved hlength ?_
      rw [hsame]
      rfl
    rcases hcores.get (by decide) hlength hchanged with ⟨⟨event, hevent, -⟩, -⟩ | ⟨-, halone⟩
    · exact List.not_mem_nil hevent
    · exact absurd ((halone 2).mp (by decide)) (by decide)

end Tuner
end CoreCycler
