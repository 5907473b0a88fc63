import CoreCycler.Library.StepSystem
import CoreCycler.Library.Watermark
import CoreCycler.Tuner.Battery
import CoreCycler.Tuner.Journal

/-!
# The survival envelope

`EnvelopeWatch` runs a session's journal next to what the engine keeps nowhere: every
offset that was resident on a core during a completed test without contrary evidence.
The envelope of a core is the most aggressive of them.

Row, memory and history of a core make a high-water mark over a one-row store
(`watermarkOf`), so a resume rebuilds the envelope exactly when the row still holds it.
-/

namespace CoreCycler
namespace Tuner

open Library StepSystem TunerConfig

/-! ## Watching a session -/

/-- The most aggressive offset survived; stock when there is none. -/
def survivalEnvelope (config : TunerConfig) (survivors : List Int) : Int :=
  (mostAggressive config survivors).getD 0

/-- A session's journal, and the offsets each core was completely tested at. -/
structure EnvelopeWatch where
  engine : JournalState
  survivors : CoreId → List Int := fun _ => []

namespace EnvelopeWatch

/-- The offsets survived after an event: a completed test adds what is resident on every
core that has no evidence against it. -/
def survivorsAfter (watch : EnvelopeWatch) : JournalEvent → CoreId → List Int
  | .testFinished false foreign, core =>
      if core ∈ foreign then watch.survivors core
      else (watch.engine.resident core).toList ++ watch.survivors core
  | _, core => watch.survivors core

def envelope (config : TunerConfig) (watch : EnvelopeWatch) (core : CoreId) : Int :=
  survivalEnvelope config (watch.survivors core)

end EnvelopeWatch

/-- The journal of a session under watch. -/
def journalSystem (config : TunerConfig) : StepSystem EnvelopeWatch JournalEvent where
  Start watch := ∃ topology coRange coreStates,
    watch = { engine := { topology, coRange, coreStates } }
  step watch event := (stepJournal config watch.engine event).map fun next =>
    { engine := next, survivors := watch.survivorsAfter event }

/-- Every core's row holds its envelope still, or, where the envelope is stock, an offset
beyond stock. -/
def EnvelopeKept (config : TunerConfig) (watch : EnvelopeWatch) : Prop :=
  ∀ core ∈ watch.engine.coreIds, ∀ row, watch.engine.journal core = some row →
    row.value = watch.envelope config core ∨
      watch.envelope config core = 0 ∧ config.isMoreAggressive row.value 0 = true

/-- The steps that resume no session whose rows have been moved off the envelope. -/
def KeepsEnvelope (config : TunerConfig) (watch : EnvelopeWatch) : JournalEvent → Prop
  | .resume _ => EnvelopeKept config watch
  | _ => True

/-- The offsets of a core that can reach the hardware. -/
def offsetFields : List (CoreState → Option Int) :=
  [fun cs => some cs.currentOffset, fun cs => some cs.baselineOffset, CoreState.bestOffset]

/-- No offset of a core is given up that is among the survivors. -/
def DemotesUnsurvived (survivors : List Int) (cs resumed : CoreState) : Prop :=
  ∀ field ∈ offsetFields, ∀ offset, field cs = some offset → field resumed ≠ some offset →
    offset ∉ survivors

instance (survivors : List Int) (cs resumed : CoreState) :
    Decidable (DemotesUnsurvived survivors cs resumed) :=
  decidable_of_iff (∀ field ∈ offsetFields, ∀ offset ∈ field cs,
    field resumed ≠ some offset → offset ∉ survivors) Iff.rfl

variable {config : TunerConfig} {state : JournalState} {core : CoreId} {survivors : List Int}

/-! ## The journal as a high-water mark -/

/-- The most aggressive offset is the deepest. -/
theorem depth_mostAggressive (hdir : Directed.IsDirection config.direction)
    (offsets : List Int) :
    (mostAggressive config offsets).map config.depth = (offsets.map config.depth).max? := by
  induction offsets with
  | nil => rfl
  | cons offset rest ih =>
      rw [List.map_cons, List.max?_cons, ← ih, mostAggressive]
      cases mostAggressive config rest with
      | none => rfl
      | some best =>
          simp only [isMoreAggressive_iff hdir, Option.map_some, Option.elim_some]
          split_ifs with hbest
          · rw [Option.map_some, max_eq_right hbest.le]
          · rw [Option.map_some, max_eq_left (not_lt.mp hbest)]

/-- Row, memory and history of a core. -/
def watermarkOf (config : TunerConfig) (state : JournalState) (core : CoreId)
    (survivors : List Int) : Watermark.State Int where
  row := (state.journal core).map fun row => (config.depth row.value, row.survived)
  mark := config.depth (state.survivedAt core)
  settled := survivors.map config.depth

theorem depth_survivalEnvelope (hdir : Directed.IsDirection config.direction) :
    config.depth (survivalEnvelope config survivors) =
      (watermarkOf config state core survivors).highest 0 := by
  rw [Watermark.State.highest, watermarkOf, ← depth_mostAggressive hdir, survivalEnvelope]
  cases mostAggressive config survivors <;> simp

/-- The row of a core under a write to it. -/
theorem watermarkOf_writeCoVerified (hdir : Directed.IsDirection config.direction) {offset : Int}
    (hrange : state.coRange.1 ≤ offset ∧ offset ≤ state.coRange.2) {accepted : Bool} :
    watermarkOf config (writeCoVerified config state core offset accepted) core survivors =
      (watermarkOf config state core survivors).write (config.depth offset) := by
  have hwithin : (!decide (config.depth (state.survivedAt core) < config.depth offset)) =
      decide (config.depth offset ≤ config.depth (state.survivedAt core)) := by
    rw [← decide_not, decide_eq_decide, not_lt]
  simp only [watermarkOf, Watermark.State.write, writeCoVerified_journal hrange, journalCoIntent,
    Function.update_self, writeCoVerified_survivedAt, Option.map_some, isMoreAggressive_eq hdir,
    hwithin]
  congr

/-- A write to another core. -/
theorem watermarkOf_writeCoVerified_other {target : CoreId} (hcore : core ≠ target) {offset : Int}
    {accepted : Bool} :
    watermarkOf config (writeCoVerified config state target offset accepted) core survivors =
      watermarkOf config state core survivors := by
  by_cases hrange : state.coRange.1 ≤ offset ∧ offset ≤ state.coRange.2
  · simp [watermarkOf, writeCoVerified_journal hrange, journalCoIntent, hcore]
  · rw [writeCoVerified_refused hrange]

/-- A completed test without contrary evidence settles the row. -/
theorem watermarkOf_survived (hdir : Directed.IsDirection config.direction) {row : JournalRow}
    (hrow : state.journal core = some row) {foreign : List CoreId} (hforeign : core ∉ foreign) :
    watermarkOf config (keepSurvived config state false foreign) core (row.value :: survivors) =
      (watermarkOf config state core survivors).settle := by
  have hmark : config.depth ((keepSurvived config state false foreign).survivedAt core) =
      max (config.depth (state.survivedAt core)) (config.depth row.value) := by
    rw [JournalState.survivedAt, keepSurvived_coSurvived,
      journalSurvivedValues_true (journalMarkSurvived_marked hrow hforeign)]
    simp only [isMoreAggressive_iff hdir]
    split_ifs with hbeyond
    · rw [Option.getD_some, max_eq_right hbeyond.le]
    · exact (max_eq_left (not_lt.mp hbeyond)).symm
  rw [Watermark.State.settle_of_some _ (show (watermarkOf config state core survivors).row =
    some (config.depth row.value, row.survived) by simp [watermarkOf, hrow])]
  rw [watermarkOf, hmark]
  simp [keepSurvived, journalMarkSurvived, hrow, hforeign, watermarkOf]

/-- A core with contrary evidence keeps its row, and the merge adds nothing to its mark. -/
theorem watermarkOf_excluded (hdir : Directed.IsDirection config.direction)
    (hsound : Watermark.Sound 0 (watermarkOf config state core survivors))
    {foreign : List CoreId} (hforeign : core ∈ foreign) :
    watermarkOf config (keepSurvived config state false foreign) core survivors =
      watermarkOf config state core survivors := by
  have hkeep : (keepSurvived config state false foreign).coSurvived core =
      state.coSurvived core := by
    rw [keepSurvived_coSurvived]
    cases hrow : state.journal core with
    | none =>
        rw [journalSurvivedValues_none ((journalMarkSurvived_excluded hforeign).trans hrow)]
    | some row =>
        obtain ⟨value, survived⟩ := row
        have hmarked := (journalMarkSurvived_excluded hforeign).trans hrow
        cases survived with
        | false => rw [journalSurvivedValues_false hmarked]
        | true =>
            have hwithin : config.depth value ≤ config.depth (state.survivedAt core) :=
              hsound.within _ (by simp [watermarkOf, hrow])
            rw [journalSurvivedValues_true hmarked]
            exact if_neg (by rwa [isMoreAggressive_iff hdir, not_lt])
  simp only [watermarkOf, JournalState.survivedAt, hkeep]
  simp [keepSurvived, journalMarkSurvived, hforeign]

/-- A resume rebuilds the mark from the row. -/
theorem watermarkOf_resumeJournal {sameProcess : Bool} :
    watermarkOf config (resumeJournal config state sameProcess) core survivors =
      (watermarkOf config state core survivors).reopen 0 := by
  simp only [watermarkOf, Watermark.State.reopen, Watermark.State.reopened,
    JournalState.survivedAt, resumeJournal_journal, resumeJournal_coSurvived]
  cases hrow : state.journal core with
  | none => simp [journalSurvivedValues_none hrow]
  | some row =>
      obtain ⟨value, survived⟩ := row
      cases survived with
      | false => simp [journalSurvivedValues_false hrow]
      | true => simp [journalSurvivedValues_true hrow]

theorem envelopeKept_iff (hdir : Directed.IsDirection config.direction)
    {watch : EnvelopeWatch} :
    EnvelopeKept config watch ↔ ∀ core ∈ watch.engine.coreIds,
      (watermarkOf config watch.engine core (watch.survivors core)).Kept 0 := by
  refine forall₂_congr fun core _ => ?_
  simp only [Watermark.State.Kept, ← depth_survivalEnvelope hdir]
  cases hrow : watch.engine.journal core with
  | none => simp [watermarkOf, hrow]
  | some row =>
      simp [watermarkOf, hrow, depth_inj hdir, depth_eq_zero hdir, isMoreAggressive_eq hdir,
        EnvelopeWatch.envelope]

/-! ## Runs -/

/-- Every core's row, memory and history fit together, and what is resident is journaled. -/
structure EnvelopeSound (config : TunerConfig) (state : JournalState)
    (survivors : CoreId → List Int) : Prop where
  marked : ∀ core ∈ state.coreIds,
    Watermark.Sound 0 (watermarkOf config state core (survivors core))
  journaled : ∀ core value, state.resident core = some value →
    ∃ row, state.journal core = some row ∧ row.value = value

namespace EnvelopeSound

variable {survived : CoreId → List Int}

theorem writeCoVerified (hsound : EnvelopeSound config state survived)
    (hdir : Directed.IsDirection config.direction) (target : CoreId) (offset : Int)
    (accepted : Bool) :
    EnvelopeSound config (writeCoVerified config state target offset accepted) survived := by
  by_cases hrange : state.coRange.1 ≤ offset ∧ offset ≤ state.coRange.2
  · refine ⟨fun core hcore => ?_, fun core value hvalue => ?_⟩
    · have hmarked := hsound.marked core (by simpa [JournalState.coreIds] using hcore)
      by_cases htarget : core = target
      · subst htarget
        rw [watermarkOf_writeCoVerified hdir hrange]
        exact hmarked.write _
      · rwa [watermarkOf_writeCoVerified_other htarget]
    · rw [writeCoVerified_resident hrange] at hvalue
      rw [writeCoVerified_journal hrange, journalCoIntent]
      by_cases htarget : core = target
      · subst htarget
        rw [Function.update_self] at hvalue ⊢
        split_ifs at hvalue
        exact ⟨_, rfl, Option.some.inj hvalue⟩
      · rw [Function.update_of_ne htarget] at hvalue ⊢
        exact hsound.journaled core value hvalue
  · rwa [writeCoVerified_refused hrange]

/-- Any loop of writes keeps the relation. -/
theorem writes (hsound : EnvelopeSound config state survived)
    (hdir : Directed.IsDirection config.direction) (cores : List CoreId) (offset : CoreId → Int)
    (accepted : CoreId → Bool) :
    EnvelopeSound config (cores.foldl (fun state core =>
      Tuner.writeCoVerified config state core (offset core) (accepted core)) state) survived := by
  induction cores generalizing state with
  | nil => exact hsound
  | cons core rest ih => exact ih (hsound.writeCoVerified hdir core _ _)

/-- Only rows, memory, residence and the ids of the cores matter. -/
theorem congr (hsound : EnvelopeSound config state survived) {other : JournalState}
    (hids : other.coreIds = state.coreIds) (hjournal : other.journal = state.journal)
    (hmemory : other.coSurvived = state.coSurvived) (hresident : other.resident = state.resident) :
    EnvelopeSound config other survived := by
  refine ⟨fun core hcore => ?_, fun core value hvalue => ?_⟩
  · have hsame : watermarkOf config other core (survived core) =
        watermarkOf config state core (survived core) := by
      simp [watermarkOf, JournalState.survivedAt, hjournal, hmemory]
    rw [hsame]
    exact hsound.marked core (hids ▸ hcore)
  · rw [hjournal]
    exact hsound.journaled core value (hresident ▸ hvalue)

theorem quarantineSession (hsound : EnvelopeSound config state survived)
    (hdir : Directed.IsDirection config.direction) (accepted : CoreId → Bool) :
    EnvelopeSound config (quarantineSession config state accepted) survived := by
  refine (hsound.writes hdir state.topology (fun _ => 0) accepted).congr ?_ rfl rfl rfl
  rw [quarantineSession_coreIds]
  exact (congrArg (List.map _) (restoreStockVerified_coreStates config state accepted)).symm

theorem revertCoreToBaseline (hsound : EnvelopeSound config state survived)
    (hdir : Directed.IsDirection config.direction) (core : CoreId) (accepted : Bool) :
    EnvelopeSound config (revertCoreToBaseline config state core accepted) survived := by
  rw [Tuner.revertCoreToBaseline]
  cases state.coreStates.find? (·.coreId = core) with
  | none => exact hsound
  | some cs => exact hsound.writeCoVerified hdir core _ _

/-- A test that completes settles every core without contrary evidence. -/
theorem keepSurvived {watch : EnvelopeWatch}
    (hsound : EnvelopeSound config watch.engine watch.survivors)
    (hdir : Directed.IsDirection config.direction)
    (hresident : ∀ core ∈ watch.engine.coreIds, (watch.engine.resident core).isSome)
    (unattributed : Bool) (foreign : List CoreId) :
    EnvelopeSound config (keepSurvived config watch.engine unattributed foreign)
      (watch.survivorsAfter (.testFinished unattributed foreign)) := by
  cases unattributed with
  | true => exact hsound
  | false =>
      refine ⟨fun core hcore => ?_, fun core value hvalue => ?_⟩
      · have hmarked := hsound.marked core hcore
        by_cases hforeign : core ∈ foreign
        · rw [EnvelopeWatch.survivorsAfter, if_pos hforeign,
            watermarkOf_excluded hdir hmarked hforeign]
          exact hmarked
        · obtain ⟨value, hvalue⟩ := Option.isSome_iff_exists.mp (hresident core hcore)
          obtain ⟨row, hrow, rfl⟩ := hsound.journaled core value hvalue
          rw [EnvelopeWatch.survivorsAfter, if_neg hforeign, hvalue, Option.toList_some,
            List.singleton_append, watermarkOf_survived hdir hrow hforeign]
          exact hmarked.settle
      · obtain ⟨row, hrow, heq⟩ := hsound.journaled core value hvalue
        by_cases hforeign : core ∈ foreign
        · exact ⟨row, (journalMarkSurvived_excluded hforeign).trans hrow, heq⟩
        · exact ⟨_, journalMarkSurvived_marked hrow hforeign, heq⟩

theorem resumeJournal {watch : EnvelopeWatch}
    (hsound : EnvelopeSound config watch.engine watch.survivors)
    (hdir : Directed.IsDirection config.direction) (hkept : EnvelopeKept config watch)
    (sameProcess : Bool) :
    EnvelopeSound config (resumeJournal config watch.engine sameProcess) watch.survivors := by
  refine ⟨fun core hcore => ?_, fun core value hvalue => ?_⟩
  · rw [resumeJournal_coreIds] at hcore
    rw [watermarkOf_resumeJournal]
    exact (hsound.marked core hcore).reopen ((envelopeKept_iff hdir).mp hkept core hcore)
  · rw [resumeJournal_resident] at hvalue
    cases sameProcess with
    | true =>
        rw [resumeJournal_journal]
        exact hsound.journaled core value hvalue
    | false => exact absurd hvalue (by simp)

end EnvelopeSound

/-- One step keeps the relation, if it resumes no session off the envelope. -/
theorem envelopeSound_step (hdir : Directed.IsDirection config.direction)
    {watch next : EnvelopeWatch} {event : JournalEvent}
    (hsound : EnvelopeSound config watch.engine watch.survivors)
    (hkeeps : KeepsEnvelope config watch event)
    (hstep : (journalSystem config).step watch event = some next) :
    EnvelopeSound config next.engine next.survivors := by
  obtain ⟨engine, hengine, rfl⟩ := Option.map_eq_some_iff.mp hstep
  cases event with
  | move cs =>
      obtain rfl := Option.some.inj hengine
      exact hsound.congr (moveCore_coreIds ..) rfl rfl rfl
  | write core offset accepted =>
      obtain rfl := Option.some.inj hengine
      exact hsound.writeCoVerified hdir core offset accepted
  | revert core accepted =>
      obtain rfl := Option.some.inj hengine
      exact hsound.revertCoreToBaseline hdir core accepted
  | testFinished unattributed foreign =>
      rw [stepJournal, Option.ite_none_right_eq_some] at hengine
      obtain ⟨hresident, hengine⟩ := hengine
      obtain rfl := Option.some.inj hengine
      exact hsound.keepSurvived hdir hresident unattributed foreign
  | quarantine accepted =>
      obtain rfl := Option.some.inj hengine
      exact hsound.quarantineSession hdir accepted
  | resume sameProcess =>
      obtain rfl := Option.some.inj hengine
      exact hsound.resumeJournal hdir hkeeps sameProcess

theorem envelopeSound_start {watch : EnvelopeWatch} (hstart : (journalSystem config).Start watch) :
    EnvelopeSound config watch.engine watch.survivors := by
  obtain ⟨topology, coRange, coreStates, rfl⟩ := hstart
  refine ⟨fun core _ => ?_, by simp⟩
  have hfresh : watermarkOf config { topology, coRange, coreStates } core [] =
      { row := none, mark := 0, settled := [] } := by
    simp [watermarkOf, JournalState.survivedAt]
  rw [hfresh]
  exact Watermark.Sound.fresh 0

/-- Re-engaging a core at or beyond everything it survived demotes nothing it survived. -/
theorem reengageCore_demotesUnsurvived (hdir : Directed.IsDirection config.direction)
    {cs : CoreState} {ground : Int}
    (hground : ∀ offset ∈ survivors, config.depth offset ≤ config.depth ground) :
    DemotesUnsurvived survivors cs (reengageCore config cs ground) := by
  have hkeep : ∀ offset ∈ survivors, pullTo config ground offset = offset := by
    intro offset hoffset
    rw [pullTo, if_neg (by rw [isMoreAggressive_iff hdir, not_lt]; exact hground offset hoffset)]
  intro field hfield offset hvalue hmoved hsurvived
  refine hmoved ?_
  simp only [offsetFields, List.mem_cons, List.not_mem_nil, or_false] at hfield
  rcases hfield with rfl | rfl | rfl
  · obtain rfl := Option.some.inj hvalue
    exact congrArg some (hkeep _ hsurvived)
  · obtain rfl := Option.some.inj hvalue
    exact congrArg some (hkeep _ hsurvived)
  · rw [reengageCore, hvalue, Option.map_some, hkeep offset hsurvived]

/-- A resume rebuilds what the high-water mark of the core is reopened at. -/
theorem depth_survivedAt_resumeJournal {sameProcess : Bool} :
    config.depth ((resumeJournal config state sameProcess).survivedAt core) =
      (watermarkOf config state core survivors).reopened 0 :=
  congrArg Watermark.State.mark
    (watermarkOf_resumeJournal : watermarkOf config _ core survivors = _)

theorem rebuilt_iff (hdir : Directed.IsDirection config.direction)
    {watch : EnvelopeWatch} (hsound : EnvelopeSound config watch.engine watch.survivors)
    (sameProcess : Bool) :
    (∀ core ∈ watch.engine.coreIds,
        (resumeJournal config watch.engine sameProcess).survivedAt core =
          watch.envelope config core) ↔
      EnvelopeKept config watch := by
  rw [envelopeKept_iff hdir]
  refine forall₂_congr fun core hcore => ?_
  rw [← (hsound.marked core hcore).reopened_iff, ← depth_survivedAt_resumeJournal,
    ← depth_survivalEnvelope hdir, depth_inj hdir, EnvelopeWatch.envelope]

/-- What a resume does to the cores of a session. -/
theorem resumeJournal_coreStates {sameProcess : Bool} :
    (resumeJournal config state sameProcess).coreStates =
      state.coreStates.map fun cs =>
        if state.quarantined then
          reengageCore config cs
            ((resumeJournal config state sameProcess).survivedAt cs.coreId)
        else cs := by
  simp only [JournalState.survivedAt, resumeJournal_coSurvived]
  cases hquarantined : state.quarantined <;>
    simp [resumeJournal, hquarantined, reengageQuarantined, JournalState.survivedAt]

/-- **The survival envelope.**  In runs that resume no session whose rows have been moved
off the envelope, a further resume rebuilds the envelope of every core exactly when the
rows hold it still; and then re-engagement demotes no offset the session survived. -/
theorem resume_rebuilds_envelope (hvalid : config.Valid) {watch : EnvelopeWatch}
    (hreach : (journalSystem config).ReachableBy (KeepsEnvelope config) watch)
    (sameProcess : Bool) :
    ((∀ core ∈ watch.engine.coreIds,
        (resumeJournal config watch.engine sameProcess).survivedAt core =
          watch.envelope config core) ↔
      EnvelopeKept config watch) ∧
    (EnvelopeKept config watch →
      List.Forall₂ (fun cs resumed => DemotesUnsurvived (watch.survivors cs.coreId) cs resumed)
        watch.engine.coreStates (resumeJournal config watch.engine sameProcess).coreStates) := by
  have hdir := hvalid.direction
  have hsound : EnvelopeSound config watch.engine watch.survivors :=
    hreach.invariant (fun _ hstart => envelopeSound_start hstart)
      fun _ _ _ hsound hkeeps hstep => envelopeSound_step hdir hsound hkeeps hstep
  refine ⟨rebuilt_iff hdir hsound sameProcess, fun hkept => ?_⟩
  have hrebuilt := (rebuilt_iff hdir hsound sameProcess).mpr hkept
  rw [resumeJournal_coreStates, List.forall₂_map_right_iff, List.forall₂_same]
  intro cs hcs
  split
  · rw [hrebuilt cs.coreId (List.mem_map_of_mem hcs)]
    refine reengageCore_demotesUnsurvived hdir fun offset hoffset => ?_
    have hsettled : config.depth offset ∈ (watermarkOf config watch.engine cs.coreId
        (watch.survivors cs.coreId)).settled := List.mem_map_of_mem hoffset
    exact (Watermark.le_highest hsettled).trans (depth_survivalEnvelope hdir).ge
  · exact fun field _ offset hvalue hmoved => absurd hvalue hmoved

/-- A session of one core whose search stands at -5. -/
def searchingAtFive : EnvelopeWatch where
  engine :=
    { topology := [0]
      coRange := (-30, 30)
      coreStates := [{ coreId := 0, phase := .coarseSearch, currentOffset := -5 }] }

theorem searchingAtFive_start (config : TunerConfig) :
    (journalSystem config).Start searchingAtFive := ⟨_, _, _, rfl⟩

/-- The core completes a test at -5. -/
def survivedAtFive : List JournalEvent :=
  [.write 0 (-5) true, .testFinished false []]

/-- A session that dies right after the test rebuilds -5. -/
theorem resume_rebuilds_five :
    ∃ watch : EnvelopeWatch,
      (journalSystem {}).ReachableBy (KeepsEnvelope {}) watch ∧
        (watch.engine.journal 0, watch.survivors 0, watch.engine.coreIds) =
          (some { value := -5, survived := true }, [-5], [0]) ∧
        ((∀ core ∈ watch.engine.coreIds,
            (resumeJournal {} watch.engine false).survivedAt core = watch.envelope {} core) ↔
          EnvelopeKept {} watch) ∧
        (EnvelopeKept {} watch →
          List.Forall₂ (fun cs resumed => DemotesUnsurvived (watch.survivors cs.coreId) cs resumed)
            watch.engine.coreStates (resumeJournal {} watch.engine false).coreStates) := by
  have hallowed : ∀ event ∈ survivedAtFive, ∀ watch, KeepsEnvelope {} watch event := by
    intro event hevent watch
    simp only [survivedAtFive, List.mem_cons, List.not_mem_nil, or_false] at hevent
    rcases hevent with rfl | rfl <;> trivial
  obtain ⟨watch, hreach, hview⟩ := exists_reachableBy (KeepsEnvelope {})
    (fun watch => (watch.engine.journal 0, watch.survivors 0, watch.engine.coreIds)) _
    survivedAtFive (searchingAtFive_start {}) hallowed rfl
  exact ⟨watch, hreach, hview, resume_rebuilds_envelope (by decide +kernel) hreach false⟩

/-- The search makes -5 the core's best offset, and the session is quarantined. -/
def quarantinedAtFive : List JournalEvent :=
  survivedAtFive ++
    [.move { coreId := 0, phase := .confirming, currentOffset := -5, bestOffset := some (-5) },
      .quarantine fun _ => true]

/-- Restoring stock before the quarantine overwrites the row: the resume rebuilds stock, and
re-engagement gives up the -5 the core completed a test at. -/
theorem stock_restore_forgets_envelope :
    ({} : TunerConfig).Valid ∧ ∃ watch, (journalSystem {}).Reachable watch ∧
      watch.envelope {} 0 = -5 ∧
      (resumeJournal {} watch.engine false).survivedAt 0 = 0 ∧
      ¬ List.Forall₂
        (fun cs resumed => DemotesUnsurvived (watch.survivors cs.coreId) cs resumed)
        watch.engine.coreStates (resumeJournal {} watch.engine false).coreStates := by
  refine ⟨by decide +kernel, ?_⟩
  obtain ⟨watch, hreach, hview⟩ := exists_reachable
    (fun watch : EnvelopeWatch => (watch.envelope {} 0,
      (resumeJournal {} watch.engine false).survivedAt 0,
      decide (List.Forall₂
        (fun cs resumed => DemotesUnsurvived (watch.survivors cs.coreId) cs resumed)
        watch.engine.coreStates (resumeJournal {} watch.engine false).coreStates)))
    (-5, 0, false) quarantinedAtFive (searchingAtFive_start {}) (by decide +kernel)
  simp only [Prod.mk.injEq, decide_eq_false_iff_not] at hview
  exact ⟨watch, hreach, hview⟩

end Tuner
end CoreCycler
