import CoreCycler.Tuner.Validation

/-!
# The ledger of a validation pass

`PassWatch` runs validation next to what the engine keeps nowhere: the slots that passed since
validation last entered stage 1, and the profile it entered with.  A clean cursor stands for a
sound pass up to the cursor (`Sound`), in memory and in the row alike.  `Holds` is the invariant;
here it is kept by every dispatch and by every result.
-/

namespace CoreCycler
namespace Tuner
namespace Validation

open Library

variable {config : TunerConfig} {ccd : CoreId → Option Nat}

/-! ## What a pass has to show -/

/-- What has happened since validation last entered stage 1. -/
structure Ledger where
  passed : List Slot := []
  profile : List (CoreId × Option Int) := []
  died : Bool := false
  /-- The memory stage was skipped, for want of its tool. -/
  toolMissing : Bool := false

/-- The slots of a pass over the enabled stages, each with its stage and its index there. -/
inductive Place (config : TunerConfig) (ccd : CoreId → Option Nat) (order : List CoreId) :
    Slot → Nat → Nat → Prop
  | solo {index : Nat} {core : CoreId} (hcore : order[index]? = some core) :
      Place config ccd order (.solo core) 1 index
  | allCores : Place config ccd order .allCores 2 0
  | half {index : Nat} (hindex : index < (validationHalves ccd order).length) :
      Place config ccd order (.half index) 3 index
  | transitions (henabled : config.validateTransitions = true) :
      Place config ccd order .transitions 4 0
  | spectrum {index : Nat} {core : CoreId} (henabled : config.validateSpectrum = true)
      (hcore : order[index]? = some core) : Place config ccd order (.spectrum core) 5 index
  | memory (henabled : config.validateMemory = true) : Place config ccd order .memory 6 0
  | soak (henabled : config.validateSoak = true) : Place config ccd order .soak 7 0

/-- The index of the cursor within its stage. -/
def Position.index (position : Position) : Nat :=
  if position.stage = 1 ∨ position.stage = 5 then position.coreIndex
  else if position.stage = 3 then position.halfIndex
  else 0

/-- The place lies before the cursor. -/
def Position.Past (position : Position) (stage index : Nat) : Prop :=
  stage < position.stage ∨ (stage = position.stage ∧ index < position.index)

/-- The slot has passed, or is the memory stage without its tool. -/
def Ledger.Settles (ledger : Ledger) (slot : Slot) : Prop :=
  slot ∈ ledger.passed ∨ (slot = .memory ∧ ledger.toolMissing = true)

/-- The pass is sound up to the cursor: its slots have passed, the profile is the one it was
entered with, and the machine has not died. -/
structure Sound (config : TunerConfig) (ccd : CoreId → Option Nat) (ledger : Ledger)
    (cores : List CoreState) (position : Position) : Prop where
  covered : ∀ slot stage index, Place config ccd (coreOrder cores) slot stage index →
    position.Past stage index → ledger.Settles slot
  profile : profileOf cores = ledger.profile
  survived : ledger.died = false

/-- Every enabled stage has passed for every core and half since validation last entered
stage 1, with one profile, and the machine has not died since. -/
structure Earned (config : TunerConfig) (ccd : CoreId → Option Nat) (ledger : Ledger)
    (cores : List CoreState) : Prop where
  passed : ∀ slot stage index, Place config ccd (coreOrder cores) slot stage index →
    ledger.Settles slot
  profile : profileOf cores = ledger.profile
  survived : ledger.died = false

theorem Place.stage_le {order : List CoreId} {slot : Slot} {stage index : Nat}
    (hplace : Place config ccd order slot stage index) : 1 ≤ stage ∧ stage ≤ 7 := by
  cases hplace <;> omega

theorem Place.stage_soak {order : List CoreId} {stage index : Nat}
    (hplace : Place config ccd order .soak stage index) : stage = 7 := by
  cases hplace
  rfl

/-- A place has one slot. -/
theorem Place.unique {order : List CoreId} {slot other : Slot} {stage index : Nat}
    (hplace : Place config ccd order slot stage index)
    (hother : Place config ccd order other stage index) : slot = other := by
  cases hplace <;> cases hother <;> first | rfl | simp_all

theorem Sound.earned {ledger : Ledger} {cores : List CoreState} {position : Position}
    (hsound : Sound config ccd ledger cores position) (hstage : 8 ≤ position.stage) :
    Earned config ccd ledger cores where
  passed := fun slot stage index hplace =>
    hsound.covered slot stage index hplace (.inl (by have := hplace.stage_le; omega))
  profile := hsound.profile
  survived := hsound.survived

/-- A cursor with nothing more before it is as sound. -/
theorem Sound.advance {ledger : Ledger} {cores : List CoreState} {position later : Position}
    (hsound : Sound config ccd ledger cores position)
    (hpast : ∀ slot stage index, Place config ccd (coreOrder cores) slot stage index →
      later.Past stage index → position.Past stage index ∨ ledger.Settles slot) :
    Sound config ccd ledger cores later where
  covered := fun slot stage index hplace hlater =>
    (hpast slot stage index hplace hlater).elim (hsound.covered slot stage index hplace) id
  profile := hsound.profile
  survived := hsound.survived

/-! ## Watching a run -/

/-- A run of validation, with its ledger. -/
structure PassWatch where
  validator : Validator
  ledger : Ledger := {}

/-- Validation enters stage 1: at the sentinel of a dirty pass, or for the first time. -/
def entersStage1 (v next : Validator) : Event → Bool
  | .fire _ => decide (v.row.stage = 8) && decide (next.row.stage = 1)
  | .returned _ _ _ _ | .resume _ => decide (v.row.stage = 0) && decide (next.row.stage ≠ 0)
  | _ => false

/-- The slot that passes in a step. -/
def passedSlot (v : Validator) : Event → Option Slot
  | .finished result =>
      match v.flow with
      | .running slot =>
          if result.ending = .verdict true ∧ result.evidence = [] ∧
              result.core ∈ v.cores.map (·.coreId) then some slot else none
      | _ => none
  | _ => none

/-- A dispatch passes over the memory stage, for want of its tool. -/
def skipsMemory (v next : Validator) : Event → Bool
  | .fire env => !env.memoryTool && decide (v.row.stage ≠ 7) && decide (next.row.stage = 7)
  | .returned _ _ _ env => !env.memoryTool && decide (next.row.stage = 7)
  | .resume resumption => !resumption.env.memoryTool && decide (next.row.stage = 7)
  | _ => false

/-- The machine died before this step. -/
def Event.died : Event → Bool
  | .resume resumption => resumption.aftermath.died
  | _ => false

def Ledger.follow (ledger : Ledger) (v : Validator) (event : Event) (next : Validator) : Ledger :=
  if entersStage1 v next event then
    { profile := profileOf next.cores }
  else
    { ledger with
      passed := (passedSlot v event).toList ++ ledger.passed
      died := ledger.died || event.died
      toolMissing := ledger.toolMissing || skipsMemory v next event }

/-- Validation from the first time its cores are confirmed. -/
def passSystem (config : TunerConfig) (ccd : CoreId → Option Nat) :
    StepSystem PassWatch Event where
  Start w := w.validator.flow = .search ∧ w.validator.row = {} ∧ w.validator.position = {}
  step w event := (step ccd config w.validator event).map fun next =>
    { validator := next, ledger := w.ledger.follow w.validator event next }

/-- A step completes the session, or enters endurance. -/
def Declares (v next : Validator) : Prop :=
  next.flow = .completed ∨ (v.row.stage ≠ 9 ∧ next.row.stage = 9)

/-- What comes back from between two processes, or from the search, has its pass made dirty if
the machine died or the profile moved. -/
def KeepsPass (config : TunerConfig) (v : Validator) : Event → Prop
  | .returned cores dirtied _ _ =>
      v.row.stage ∈ [0, 9] ∨ profileOf cores = profileOf v.cores ∨
        v.position.dirty = true ∨ v.row.dirty = true ∨ dirtied = true
  | .resume resumption =>
      v.row.stage ∈ [0, 9] ∨ v.row.dirty = true ∨
        (profileOf resumption.cores = profileOf v.cores ∧ resumption.aftermath.died = false) ∨
        resumption.aftermath = .charged true ∨
        (resumption.aftermath = .incident ∧ wasValidating config resumption.cores = true)
  | _ => True

/-! ## The cursor after a pass -/

/-- A stage of one slot has no other index. -/
theorem Place.zero_of_single {order : List CoreId} {slot : Slot} {stage index : Nat}
    (hplace : Place config ccd order slot stage index) :
    stage = 1 ∨ stage = 3 ∨ stage = 5 ∨ index = 0 := by
  cases hplace <;> omega

theorem afterPass_cases (position : Position) :
    (position.stage = 1 ∧ Validator.afterPass position =
      { position with coreIndex := position.coreIndex + 1 }) ∨
    (position.stage = 2 ∧ Validator.afterPass position =
      { position with stage := 3, halfIndex := 0 }) ∨
    (position.stage = 3 ∧ Validator.afterPass position =
      { position with halfIndex := position.halfIndex + 1 }) ∨
    (position.stage = 4 ∧ Validator.afterPass position =
      { position with stage := 5, coreIndex := 0 }) ∨
    (position.stage = 5 ∧ Validator.afterPass position =
      { position with coreIndex := position.coreIndex + 1 }) ∨
    (position.stage = 6 ∧ Validator.afterPass position = { position with stage := 7 }) ∨
    Validator.afterPass position = position := by
  unfold Validator.afterPass
  split <;> simp_all

theorem stage_le_afterPass (position : Position) :
    position.stage ≤ (Validator.afterPass position).stage := by
  rcases afterPass_cases position with ⟨_, h⟩ | ⟨_, h⟩ | ⟨_, h⟩ | ⟨_, h⟩ | ⟨_, h⟩ | ⟨_, h⟩ | h <;>
    simp only [h] <;> omega

theorem afterPass_stage_le {position : Position} (hle : position.stage ≤ 9) :
    (Validator.afterPass position).stage ≤ 9 := by
  rcases afterPass_cases position with ⟨_, h⟩ | ⟨_, h⟩ | ⟨_, h⟩ | ⟨_, h⟩ | ⟨_, h⟩ | ⟨_, h⟩ | h <;>
    simp only [h] <;> omega

theorem afterPass_dirty (position : Position) :
    (Validator.afterPass position).dirty = position.dirty := by
  rcases afterPass_cases position with ⟨_, h⟩ | ⟨_, h⟩ | ⟨_, h⟩ | ⟨_, h⟩ | ⟨_, h⟩ | ⟨_, h⟩ | h <;>
    rw [h]

/-- Past the cursor after a pass lies one place more at most. -/
theorem past_afterPass {position : Position} {stage index : Nat}
    (hzero : stage = 1 ∨ stage = 3 ∨ stage = 5 ∨ index = 0)
    (hpast : (Validator.afterPass position).Past stage index) :
    position.Past stage index ∨
      (stage = position.stage ∧ index = position.index ∧ position.stage ≤ 7) := by
  rcases afterPass_cases position with ⟨hat, h⟩ | ⟨hat, h⟩ | ⟨hat, h⟩ | ⟨hat, h⟩ | ⟨hat, h⟩ |
    ⟨hat, h⟩ | h
  case inr.inr.inr.inr.inr.inr => exact .inl (h ▸ hpast)
  all_goals
    rw [h] at hpast
    simp only [Position.Past, Position.index, hat] at hpast ⊢
    simp at hpast ⊢
    omega

/-! ## The invariant -/

/-- Validation has something to do. -/
def Flow.validating : Flow → Bool
  | next | requeue | running _ => true
  | _ => false

/-- The slot is the one that the cursor stands at. -/
def SlotAt (config : TunerConfig) (ccd : CoreId → Option Nat) (v : Validator) (slot : Slot) :
    Prop :=
  v.position.stage ≤ 7 ∨ slot = .soak →
    Place config ccd v.order slot v.position.stage v.position.index

/-- What every step keeps. -/
structure Holds (config : TunerConfig) (ccd : CoreId → Option Nat) (ledger : Ledger)
    (v : Validator) : Prop where
  /-- While validation goes on, the row is the cursor in memory. -/
  saved : v.flow.validating = true → v.row = v.position ∧ 1 ≤ v.row.stage
  ordered : v.flow.validating = true →
    v.order = coreOrder v.cores ∧ v.halves = validationHalves ccd v.order
  range : v.row.stage ≤ 9 ∧ v.position.stage ≤ 9
  away : v.flow = .search ∨ v.flow = .hunting → v.position.stage = 0
  sound : 1 ≤ v.row.stage → v.row.stage ≤ 8 → v.row.dirty = false →
    Sound config ccd ledger v.cores v.row
  slot : ∀ slot, v.flow = .running slot → v.inRequeue = false ∨ slot = .soak → SlotAt config ccd v slot

section

variable {ledger : Ledger} {v : Validator}

theorem coreOrder_congr {cores others : List CoreState} (hprofile : profileOf cores = profileOf others) :
    coreOrder cores = coreOrder others := by
  have hids : ∀ cores : List CoreState, (cores.filter (·.bestOffset.isSome)).map (·.coreId) =
      ((profileOf cores).filter (·.2.isSome)).map (·.1) := fun cores => by
    simp only [profileOf, List.filter_map, List.map_map]
    rfl
  rw [coreOrder, coreOrder, hids, hids, hprofile]

/-- Which cores have a best offset makes the order. -/
theorem coreOrder_map {cores : List CoreState} {change : CoreState → CoreState}
    (hkeeps : ∀ cs, (change cs).coreId = cs.coreId ∧
      (change cs).bestOffset.isSome = cs.bestOffset.isSome) :
    coreOrder (cores.map change) = coreOrder cores := by
  have hsome : ((fun cs : CoreState => cs.bestOffset.isSome) ∘ change) =
      fun cs => cs.bestOffset.isSome := funext fun cs => (hkeeps cs).2
  have hid : ((fun cs : CoreState => cs.coreId) ∘ change) = fun cs => cs.coreId :=
    funext fun cs => (hkeeps cs).1
  rw [coreOrder, coreOrder, List.filter_map, List.map_map, hsome, hid]

theorem backoffCore_keeps {cs moved : CoreState} (hmoved : backoffCore config cs = some moved) :
    moved.coreId = cs.coreId ∧ moved.bestOffset.isSome = cs.bestOffset.isSome := by
  unfold backoffCore at hmoved
  split at hmoved
  · cases hmoved
  · rename_i best hbest
    split at hmoved
    · cases hmoved
    · obtain rfl := Option.some.inj hmoved
      exact ⟨rfl, by simp [hbest]⟩

/-- A penalty away from stock makes the pass dirty. -/
theorem penalizeResident_dirties (config : TunerConfig) (cs : CoreState) {resident : Int}
    (hresident : resident ≠ 0) (steps : Option Int) (countCrash : Bool) :
    (penalizeResident config cs resident steps countCrash).validationDirtied = true := by
  simp [penalizeResident, applyCrashPenalty, hresident]

theorem profileOf_map {cores : List CoreState} {change : CoreState → CoreState}
    (hkeeps : ∀ cs, (change cs).coreId = cs.coreId ∧ (change cs).bestOffset = cs.bestOffset) :
    profileOf (cores.map change) = profileOf cores := by
  simp only [profileOf, List.map_map]
  refine List.map_congr_left fun cs _ => ?_
  rw [Function.comp_apply, (hkeeps cs).1, (hkeeps cs).2]

theorem Sound.congr {cores others : List CoreState} {position : Position}
    (hsound : Sound config ccd ledger cores position) (hprofile : profileOf others = profileOf cores) :
    Sound config ccd ledger others position where
  covered := by
    rw [coreOrder_congr hprofile]
    exact hsound.covered
  profile := hprofile.trans hsound.profile
  survived := hsound.survived

namespace Holds

/-- What the row answers for, whatever else becomes of the engine. -/
def RowSound (config : TunerConfig) (ccd : CoreId → Option Nat) (ledger : Ledger)
    (v : Validator) : Prop :=
  1 ≤ v.row.stage → v.row.stage ≤ 8 → v.row.dirty = false →
    Sound config ccd ledger v.cores v.row

theorem closed (hflow : v.flow = .stopped ∨ v.flow = .completed)
    (hrange : v.row.stage ≤ 9 ∧ v.position.stage ≤ 9) (hsound : RowSound config ccd ledger v) :
    Holds config ccd ledger v where
  saved := fun hvalidating => by rcases hflow with hflow | hflow <;> simp [hflow, Flow.validating] at hvalidating
  ordered := fun hvalidating => by rcases hflow with hflow | hflow <;> simp [hflow, Flow.validating] at hvalidating
  range := hrange
  away := fun haway => by rcases hflow with hflow | hflow <;> simp [hflow] at haway
  sound := hsound
  slot := fun slot hslot => by rcases hflow with hflow | hflow <;> simp [hflow] at hslot

theorem gone (hflow : v.flow = .search ∨ v.flow = .hunting) (hstage : v.position.stage = 0)
    (hrange : v.row.stage ≤ 9) (hsound : RowSound config ccd ledger v) :
    Holds config ccd ledger v where
  saved := fun hvalidating => by rcases hflow with hflow | hflow <;> simp [hflow, Flow.validating] at hvalidating
  ordered := fun hvalidating => by rcases hflow with hflow | hflow <;> simp [hflow, Flow.validating] at hvalidating
  range := ⟨hrange, by omega⟩
  away := fun _ => hstage
  sound := hsound
  slot := fun slot hslot => by rcases hflow with hflow | hflow <;> simp [hflow] at hslot

theorem halt (hholds : Holds config ccd ledger v) : Holds config ccd ledger v.halt :=
  closed (.inl rfl) hholds.range hholds.sound

theorem exitToSearch (hholds : Holds config ccd ledger v) :
    Holds config ccd ledger v.exitToSearch :=
  gone (.inl rfl) rfl hholds.range.1 hholds.sound

theorem stopAndRestore (hholds : Holds config ccd ledger v) :
    Holds config ccd ledger v.stopAndRestore := by
  refine closed (.inl rfl) ⟨hholds.range.1, Nat.zero_le _⟩ fun hpos hle hclean => ?_
  exact (hholds.sound hpos hle hclean).congr (profileOf_map fun cs => ⟨rfl, rfl⟩)

/-- What the cores carry besides their best offsets does not matter. -/
theorem mapCores (change : CoreState → CoreState)
    (hkeeps : ∀ cs, (change cs).coreId = cs.coreId ∧ (change cs).bestOffset = cs.bestOffset)
    (hholds : Holds config ccd ledger v) : Holds config ccd ledger (v.mapCores change) where
  saved := hholds.saved
  ordered := fun hvalidating => by
    obtain ⟨horder, hhalves⟩ := hholds.ordered hvalidating
    exact ⟨horder.trans (coreOrder_congr (profileOf_map hkeeps)).symm, hhalves⟩
  range := hholds.range
  away := hholds.away
  sound := fun hpos hle hclean => (hholds.sound hpos hle hclean).congr (profileOf_map hkeeps)
  slot := hholds.slot

theorem moveTo {position : Position}
    (hordered : v.order = coreOrder v.cores ∧ v.halves = validationHalves ccd v.order)
    (hpos : 1 ≤ position.stage) (hle : position.stage ≤ 9)
    (hsound : position.stage ≤ 8 → position.dirty = false →
      Sound config ccd ledger v.cores position) : Holds config ccd ledger (v.moveTo position) where
  saved := fun _ => ⟨rfl, hpos⟩
  ordered := fun _ => hordered
  range := ⟨hle, hle⟩
  away := fun haway => by rcases haway with haway | haway <;> cases haway
  sound := fun _ => hsound
  slot := fun slot hslot => by cases hslot

theorem requeueAt {position : Position}
    (hordered : v.order = coreOrder v.cores ∧ v.halves = validationHalves ccd v.order)
    (hpos : 1 ≤ position.stage) (hle : position.stage ≤ 9)
    (hsound : position.stage ≤ 8 → position.dirty = false →
      Sound config ccd ledger v.cores position) :
    Holds config ccd ledger (v.requeueAt position) where
  saved := fun _ => ⟨rfl, hpos⟩
  ordered := fun _ => hordered
  range := ⟨hle, hle⟩
  away := fun haway => by rcases haway with haway | haway <;> cases haway
  sound := fun _ => hsound
  slot := fun slot hslot => by cases hslot

theorem markCoresUnderStress (hholds : Holds config ccd ledger v) (cores : List CoreId) :
    Holds config ccd ledger (v.markCoresUnderStress cores) := by
  have hmarked := hholds.mapCores
    (fun cs => if cs.coreId ∈ cores then { cs with inTest := true } else cs)
    fun cs => by split <;> exact ⟨rfl, rfl⟩
  exact ⟨hmarked.saved, hmarked.ordered, hmarked.range, hmarked.away, hmarked.sound, hmarked.slot⟩

theorem launch (hholds : Holds config ccd ledger v) (hvalidating : v.flow.validating = true)
    {slot : Slot} (hslot : v.inRequeue = false ∨ slot = .soak → SlotAt config ccd v slot) (env : Dispatch)
    (cores : List CoreId) : Holds config ccd ledger (v.launch env slot cores) := by
  unfold Validator.launch
  split
  · have hmarked := hholds.markCoresUnderStress cores
    exact {
      saved := fun _ => hmarked.saved hvalidating
      ordered := fun _ => hmarked.ordered hvalidating
      range := hmarked.range
      away := fun haway => by rcases haway with haway | haway <;> cases haway
      sound := hmarked.sound
      slot := fun launched hlaunched hwhen => by
        obtain rfl : slot = launched := by injection hlaunched
        exact hslot hwhen }
  · exact hholds.halt

/-- The next step is queued. -/
theorem queue (hholds : Holds config ccd ledger v) (hvalidating : v.flow.validating = true)
    {flow : Flow} (hflow : flow = .next ∨ flow = .requeue) :
    Holds config ccd ledger { v with flow := flow } where
  saved := fun _ => hholds.saved hvalidating
  ordered := fun _ => hholds.ordered hvalidating
  range := hholds.range
  away := fun haway => by rcases hflow with rfl | rfl <;> rcases haway with haway | haway <;> cases haway
  sound := hholds.sound
  slot := fun slot hslot => by rcases hflow with rfl | rfl <;> cases hslot

/-! ### Dispatches -/

theorem moveEndurance (hholds : Holds config ccd ledger v) (endurance : Endurance) :
    Holds config ccd ledger (v.moveEndurance endurance) :=
  ⟨hholds.saved, hholds.ordered, hholds.range, hholds.away, hholds.sound, hholds.slot⟩

theorem finishEnduranceRound (hholds : Holds config ccd ledger v)
    (hvalidating : v.flow.validating = true) (hstage : v.position.stage = 9) (env : Dispatch) :
    Holds config ccd ledger (v.finishEnduranceRound config env) := by
  have hmoved : Holds config ccd ledger
      (({ v with unattributed := if v.position.dirty then v.unattributed else 0 }.moveTo
        { v.position with dirty := false }).moveEndurance { round := v.endurance.round + 1 }) := by
    apply moveEndurance
    apply moveTo
    · exact hholds.ordered hvalidating
    · simp [hstage]
    · simp [hstage]
    · intro hle
      simp [hstage] at hle
  unfold Validator.finishEnduranceRound
  cases env.annealCandidate with
  | none => exact hmoved
  | some core =>
      exact gone (.inl rfl) rfl hmoved.range.1 fun _ hle _ => by
        simp [Validator.exitToSearch, Validator.mapCores, Validator.moveEndurance,
          Validator.moveTo, hstage] at hle

theorem runEnduranceNext (hholds : Holds config ccd ledger v)
    (hvalidating : v.flow.validating = true) (hstage : v.position.stage = 9) (env : Dispatch) :
    Holds config ccd ledger (v.runEnduranceNext config env) := by
  have hslot : ∀ core, SlotAt config ccd v
      (.endurance v.endurance.round v.endurance.workload core) := fun core hwhen => by
    rcases hwhen with hle | hsoak
    · omega
    · cases hsoak
  unfold Validator.runEnduranceNext
  simp only
  split
  · exact hholds.finishEnduranceRound hvalidating hstage env
  · split
    · exact hholds.launch hvalidating (fun _ => hslot _) env _
    · split
      · exact hholds.launch hvalidating (fun _ => hslot _) env _
      · exact (hholds.moveEndurance _).queue hvalidating (.inl rfl)

/-- A dispatch that launches nothing passes over a stage that is over or disabled. -/
theorem passOver (hholds : Holds config ccd ledger v) (hvalidating : v.flow.validating = true)
    {position : Position} (hpos : 1 ≤ position.stage) (hle : position.stage ≤ 8)
    (hstage : v.position.stage ≤ 8) (hdirty : position.dirty = v.position.dirty)
    (hpast : ∀ slot stage index, Place config ccd v.order slot stage index →
      position.Past stage index → v.position.Past stage index ∨ ledger.Settles slot) :
    Holds config ccd ledger (v.moveTo position) := by
  obtain ⟨hsaved, hfrom⟩ := hholds.saved hvalidating
  have hordered := hholds.ordered hvalidating
  refine moveTo hordered hpos (by omega) fun _ hclean => ?_
  have hsound := hholds.sound hfrom
  rw [hsaved] at hsound
  rw [hordered.1] at hpast
  exact (hsound hstage (hdirty ▸ hclean)).advance hpast

/-- A dispatch launches the slot that the cursor stands at. -/
theorem launchAt (hholds : Holds config ccd ledger v) (hvalidating : v.flow.validating = true)
    {slot : Slot} {stage index : Nat} (hplace : Place config ccd v.order slot stage index)
    (hstage : v.position.stage = stage) (hindex : v.position.index = index) (env : Dispatch)
    (cores : List CoreId) : Holds config ccd ledger (v.launch env slot cores) :=
  hholds.launch hvalidating (fun _ _ => by rwa [hstage, hindex]) env cores

theorem runValidationStage1 (hholds : Holds config ccd ledger v)
    (hvalidating : v.flow.validating = true) (hstage : v.position.stage = 1) (env : Dispatch) :
    Holds config ccd ledger (v.runValidationStage1 env) := by
  have hindex : v.position.index = v.position.coreIndex := by simp [Position.index, hstage]
  unfold Validator.runValidationStage1
  split
  · rename_i hover
    rw [List.getElem?_eq_none_iff] at hover
    refine hholds.passOver hvalidating (by simp) (by simp) (by omega) rfl
      fun slot stage index hplace hpast => .inl ?_
    simp only [Position.Past, hstage, hindex]
    cases hplace with
    | solo hcore => exact .inr ⟨rfl, by have := (List.getElem?_eq_some_iff.mp hcore).1; omega⟩
    | _ => simp [Position.Past, Position.index] at hpast
  · rename_i core hcore
    exact hholds.launchAt hvalidating (.solo hcore) hstage hindex env _

theorem runValidationStage3 (hholds : Holds config ccd ledger v)
    (hvalidating : v.flow.validating = true) (hstage : v.position.stage = 3) (env : Dispatch) :
    Holds config ccd ledger (v.runValidationStage3 env) := by
  have hindex : v.position.index = v.position.halfIndex := by simp [Position.index, hstage]
  have hhalves := (hholds.ordered hvalidating).2
  unfold Validator.runValidationStage3
  split
  · rename_i hover
    rw [hhalves, List.getElem?_eq_none_iff] at hover
    refine hholds.passOver hvalidating (by simp) (by simp) (by omega) rfl
      fun slot stage index hplace hpast => .inl ?_
    simp only [Position.Past, hstage, hindex]
    cases hplace with
    | half hlt => exact .inr ⟨rfl, by omega⟩
    | solo | allCores => exact .inl (by omega)
    | _ => simp [Position.Past, Position.index] at hpast
  · rename_i half hhalf
    rw [hhalves] at hhalf
    exact hholds.launchAt hvalidating (.half (List.getElem?_eq_some_iff.mp hhalf).1) hstage hindex
      env _

theorem runValidationStage5 (hholds : Holds config ccd ledger v)
    (hvalidating : v.flow.validating = true) (hstage : v.position.stage = 5)
    (henabled : config.validateSpectrum = true) (env : Dispatch) :
    Holds config ccd ledger (v.runValidationStage5 env) := by
  have hindex : v.position.index = v.position.coreIndex := by simp [Position.index, hstage]
  unfold Validator.runValidationStage5
  split
  · rename_i hover
    rw [List.getElem?_eq_none_iff] at hover
    refine hholds.passOver hvalidating (by simp) (by simp) (by omega) rfl
      fun slot stage index hplace hpast => .inl ?_
    simp only [Position.Past, hstage, hindex]
    cases hplace with
    | spectrum _ hcore =>
        exact .inr ⟨rfl, by have := (List.getElem?_eq_some_iff.mp hcore).1; omega⟩
    | memory | soak => simp [Position.Past, Position.index] at hpast
    | _ => exact .inl (by omega)
  · rename_i core hcore
    exact hholds.launchAt hvalidating (.spectrum henabled hcore) hstage hindex env _

/-- A stage without a place to run is passed over. -/
theorem skipStage (hholds : Holds config ccd ledger v) (hvalidating : v.flow.validating = true)
    {position : Position} (hstage : position.stage = v.position.stage + 1)
    (hle : v.position.stage ≤ 7) (hindex : position.index = 0)
    (hdirty : position.dirty = v.position.dirty)
    (hskipped : ∀ slot index, Place config ccd v.order slot v.position.stage index →
      ledger.Settles slot) : Holds config ccd ledger (v.moveTo position) := by
  refine hholds.passOver hvalidating (by omega) (by omega) (by omega) hdirty
    fun slot stage index hplace hpast => ?_
  simp only [Position.Past, hstage, hindex] at hpast
  by_cases hthis : stage = v.position.stage
  · subst hthis
    exact .inr (hskipped slot index hplace)
  · exact .inl (.inl (by omega))

/-- What is no other stage is the sentinel. -/
theorem stage_sentinel {stage : Nat} (hpos : 1 ≤ stage) (hle : stage ≤ 9)
    (hone : stage = 1 → False) (htwo : stage = 2 → False) (hthree : stage = 3 → False)
    (hfour : stage = 4 → False) (hfive : stage = 5 → False) (hsix : stage = 6 → False)
    (hseven : stage = 7 → False) (hnine : stage = 9 → False) : stage = 8 := by
  by_contra hsentinel
  have hall : stage = 1 ∨ stage = 2 ∨ stage = 3 ∨ stage = 4 ∨ stage = 5 ∨ stage = 6 ∨ stage = 7 ∨
      stage = 9 := by omega
  tauto

/-- Before the sentinel, a dispatch launches the slot of the cursor, or passes over a stage. -/
theorem runValidationNext (hholds : Holds config ccd ledger v)
    (hvalidating : v.flow.validating = true) (hstage : v.position.stage ≠ 8) (env : Dispatch)
    (hmissing : env.memoryTool = false → v.position.stage ≠ 7 →
      (v.runValidationNext config env).row.stage = 7 → ledger.toolMissing = true) :
    Holds config ccd ledger (v.runValidationNext config env) := by
  obtain ⟨hsaved, hpos⟩ := hholds.saved hvalidating
  have hrange := hholds.range.2
  rw [hsaved] at hpos
  unfold Validator.runValidationNext at hmissing ⊢
  split
  · exact hholds.halt
  rename_i hpaused
  rw [if_neg hpaused] at hmissing
  split
  · rename_i hat
    exact hholds.runValidationStage1 hvalidating hat env
  · rename_i hat
    exact hholds.launchAt hvalidating .allCores hat (by simp [Position.index, hat]) env _
  · rename_i hat
    exact hholds.runValidationStage3 hvalidating hat env
  · rename_i hat
    split
    · rename_i henabled
      exact hholds.launchAt hvalidating (.transitions henabled) hat
        (by simp [Position.index, hat]) env _
    -- A stage that is switched off is skipped, and nothing is owed to it.
    · rename_i hdisabled
      refine hholds.skipStage hvalidating (by simp [hat]) (by omega)
        (by simp [Position.index]) rfl fun slot index hplace => ?_
      rw [hat] at hplace
      cases hplace with
      | transitions henabled => exact absurd henabled hdisabled
  · rename_i hat
    split
    · rename_i henabled
      exact hholds.runValidationStage5 hvalidating hat henabled env
    · rename_i hdisabled
      refine hholds.skipStage hvalidating (by simp [hat]) (by omega)
        (by simp [Position.index]) rfl fun slot index hplace => ?_
      rw [hat] at hplace
      cases hplace with
      | spectrum henabled => exact absurd henabled hdisabled
  · rename_i hat
    split
    · rename_i henabled
      exact hholds.launchAt hvalidating (.memory henabled.1) hat
        (by simp [Position.index, hat]) env _
    · rename_i hskipped
      refine hholds.skipStage hvalidating (by simp [hat]) (by omega)
        (by simp [Position.index]) rfl fun slot index hplace => ?_
      rw [hat] at hplace
      cases hplace with
      | memory henabled =>
          have htool : env.memoryTool = false := by simpa [henabled] using hskipped
          exact .inr ⟨rfl, hmissing htool (by omega) (by simp [hat, htool, Validator.moveTo])⟩
  · rename_i hat
    split
    · rename_i henabled
      exact hholds.launchAt hvalidating (.soak henabled.1) hat (by simp [Position.index, hat]) env _
    · rename_i hskipped
      by_cases hdirty : v.position.dirty = true
      · refine moveTo (hholds.ordered hvalidating) (by simp) (by simp) fun _ hclean => ?_
        exact absurd hclean (by simp [hdirty])
      · refine hholds.skipStage hvalidating (by simp [hat]) (by omega)
          (by simp [Position.index]) rfl fun slot index hplace => ?_
        rw [hat] at hplace
        cases hplace with
        | soak henabled => exact absurd (by simp [henabled, hdirty]) hskipped
  · rename_i hat
    exact hholds.runEnduranceNext hvalidating hat env
  · exact absurd (by apply stage_sentinel <;> assumption) hstage

/-- Validation that starts over has nothing behind its cursor. -/
theorem startOver (hordered : v.order = coreOrder v.cores ∧ v.halves = validationHalves ccd v.order) :
    Holds config ccd { profile := profileOf v.cores } (v.moveTo { stage := 1 }) := by
  refine moveTo hordered (by simp) (by simp) fun _ _ => ⟨?_, rfl, rfl⟩
  intro slot stage index hplace hpast
  have := hplace.stage_le
  rcases hpast with hlt | ⟨-, hlt⟩
  · simp only at hlt
    omega
  · simp [Position.index] at hlt

/-- The sentinel closes a clean pass, and starts a dirty one over. -/
theorem allStagesComplete (hholds : Holds config ccd ledger v)
    (hvalidating : v.flow.validating = true) (env : Dispatch) :
    Holds config ccd (if v.position.dirty then { profile := profileOf v.cores } else ledger)
      (v.allStagesComplete config env) := by
  have hordered := hholds.ordered hvalidating
  unfold Validator.allStagesComplete
  split
  · exact startOver hordered
  · rename_i hclean
    split
    · unfold Validator.enterEndurance
      apply moveEndurance
      apply moveTo
      · exact hordered
      · simp
      · simp
      · intro hle
        simp at hle
    · unfold Validator.finalizeSession
      rw [if_neg hclean]
      split
      · exact closed (.inr rfl) (by simp [Validator.moveTo]) fun hpos => by
          simp [Validator.moveTo] at hpos
      · exact closed (.inl rfl) hholds.range hholds.sound

theorem runValidationRequeue (hholds : Holds config ccd ledger v)
    (hvalidating : v.flow.validating = true) (env : Dispatch) :
    Holds config ccd ledger (v.runValidationRequeue env) := by
  obtain ⟨hsaved, hpos⟩ := hholds.saved hvalidating
  have hordered := hholds.ordered hvalidating
  have hrange := hholds.range.2
  have hsound := hholds.sound
  rw [hsaved] at hpos hsound
  unfold Validator.runValidationRequeue
  split
  · exact hholds.halt
  · split
    · apply moveTo
      · exact hordered
      · exact hpos
      · exact hrange
      · exact hsound hpos
    · have hquiet : Holds config ccd ledger { v with inRequeue := true } :=
        ⟨hholds.saved, hholds.ordered, hholds.range, hholds.away, hholds.sound,
          fun slot hslot hwhen => hholds.slot slot hslot (hwhen.elim (fun h => by cases h) .inr)⟩
      exact hquiet.launch hvalidating (fun hwhen => by
        rcases hwhen with hwhen | hwhen <;> cases hwhen) env _

/-! ### Results -/

theorem retry (hholds : Holds config ccd ledger v) (hvalidating : v.flow.validating = true) :
    Holds config ccd ledger v.retry := by
  refine hholds.queue hvalidating ?_
  split
  · exact .inr rfl
  · exact .inl rfl

theorem handleThermalAbort (hholds : Holds config ccd ledger v)
    (hvalidating : v.flow.validating = true) :
    Holds config ccd ledger (v.handleThermalAbort config) := by
  have hcounted : Holds config ccd ledger { v with thermalAborts := v.thermalAborts + 1 } :=
    ⟨hholds.saved, hholds.ordered, hholds.range, hholds.away, hholds.sound, hholds.slot⟩
  unfold Validator.handleThermalAbort
  simp only
  split
  · exact hcounted.stopAndRestore
  · exact hcounted.retry hvalidating

theorem handleApparatusFault (hholds : Holds config ccd ledger v)
    (hvalidating : v.flow.validating = true) :
    Holds config ccd ledger (v.handleApparatusFault config) := by
  have hcounted : Holds config ccd ledger { v with apparatusFaults := v.apparatusFaults + 1 } :=
    ⟨hholds.saved, hholds.ordered, hholds.range, hholds.away, hholds.sound, hholds.slot⟩
  unfold Validator.handleApparatusFault
  simp only
  split
  · exact hcounted.stopAndRestore
  · exact hcounted.retry hvalidating

/-- A passed slot moves the cursor past its place. -/
theorem passSlot (hholds : Holds config ccd ledger v) {slot : Slot}
    (hflow : v.flow = .running slot) (hout : v.inRequeue = false)
    (hpassed : slot ∈ ledger.passed) : Holds config ccd ledger v.passSlot := by
  have hvalidating : v.flow.validating = true := by rw [hflow]; rfl
  obtain ⟨hsaved, hpos⟩ := hholds.saved hvalidating
  have hordered := hholds.ordered hvalidating
  have hrange := hholds.range.2
  have hsound := hholds.sound hpos
  rw [hsaved] at hpos hsound
  unfold Validator.passSlot
  apply moveEndurance
  apply moveTo
  · exact hordered
  · exact hpos.trans (stage_le_afterPass v.position)
  · exact afterPass_stage_le hrange
  · intro hle hclean
    rw [afterPass_dirty] at hclean
    have hfrom : v.position.stage ≤ 8 := (stage_le_afterPass v.position).trans hle
    refine (hsound hfrom hclean).advance fun other stage index hplace hpast => ?_
    rcases past_afterPass hplace.zero_of_single hpast with hbefore | ⟨rfl, rfl, hseven⟩
    · exact .inl hbefore
    · have hslot := hholds.slot slot hflow (.inl hout) (.inl hseven)
      rw [hordered.1] at hslot
      exact .inr (.inl (hplace.unique hslot ▸ hpassed))

theorem finalizeExhausted (hrange : v.position.stage ≤ 9)
    (hsound : 1 ≤ v.position.stage → v.position.stage ≤ 8 → v.position.dirty = false →
      Sound config ccd ledger v.cores v.position) :
    Holds config ccd ledger v.finalizeExhausted :=
  closed (.inl rfl) ⟨hrange, hrange⟩ hsound

/-- A core that is backed off still has a best offset. -/
theorem backedOff {cores : List CoreState} {core : CoreId}
    (hbacked : Validator.backoffCoreIn config v.cores core = some cores) :
    coreOrder cores = coreOrder v.cores := by
  unfold Validator.backoffCoreIn at hbacked
  split at hbacked
  · obtain rfl := Option.some.inj hbacked
    exact coreOrder_map fun cs => by
      split
      · cases hmoved : backoffCore config cs with
        | none => exact ⟨rfl, rfl⟩
        | some moved => exact backoffCore_keeps hmoved
      · exact ⟨rfl, rfl⟩
  · cases hbacked

/-- A core was backed off: the pass is dirty, and goes on as it may. -/
theorem backoff {cores : List CoreState} {core : CoreId} (hholds : Holds config ccd ledger v)
    (hvalidating : v.flow.validating = true) (position : Position)
    (hbacked : Validator.backoffCoreIn config v.cores core = some cores)
    (hstage : position.stage = v.position.stage) (hdirty : position.dirty = true) :
    Holds config ccd ledger ({ v with cores := cores }.moveTo position) ∧
      Holds config ccd ledger ({ v with cores := cores }.requeueAt position) := by
  obtain ⟨hsaved, hpos⟩ := hholds.saved hvalidating
  obtain ⟨horder, hhalves⟩ := hholds.ordered hvalidating
  have hrange := hholds.range.2
  rw [hsaved] at hpos
  have hordered : v.order = coreOrder cores ∧ v.halves = validationHalves ccd v.order :=
    ⟨horder.trans (backedOff hbacked).symm, hhalves⟩
  have hvacuous : position.stage ≤ 8 → position.dirty = false →
      Sound config ccd ledger cores position := fun _ hclean => by
    rw [hdirty] at hclean
    cases hclean
  exact ⟨moveTo hordered (by omega) (by omega) hvacuous,
    requeueAt hordered (by omega) (by omega) hvacuous⟩

theorem finishRetest (hholds : Holds config ccd ledger v) (hvalidating : v.flow.validating = true)
    (core : CoreId) (passed : Bool) :
    Holds config ccd ledger (v.finishRetest config core passed) := by
  obtain ⟨hsaved, hpos⟩ := hholds.saved hvalidating
  have hrange := hholds.range.2
  have hsound := hholds.sound hpos
  rw [hsaved] at hpos hsound
  unfold Validator.finishRetest
  split
  · apply requeueAt
    · exact hholds.ordered hvalidating
    · exact hpos
    · exact hrange
    · intro hle hclean
      exact (hsound hle hclean).advance fun _ _ _ _ hpast => .inl hpast
  · simp only
    split
    · exact finalizeExhausted hrange fun _ _ hclean => by cases hclean
    · rename_i cores hbacked
      have hnoted : Holds config ccd ledger
          ({ v with cores := cores }.requeueAt { v.position with dirty := true }) :=
        (hholds.backoff hvalidating { v.position with dirty := true } hbacked rfl rfl).2
      exact hnoted

theorem failSlot (hholds : Holds config ccd ledger v) (hvalidating : v.flow.validating = true)
    (core : CoreId) : Holds config ccd ledger (v.failSlot config core) := by
  obtain ⟨hsaved, hpos⟩ := hholds.saved hvalidating
  have hrange := hholds.range.2
  have hsound := hholds.sound
  rw [hsaved] at hpos hsound
  unfold Validator.failSlot
  split
  · exact gone (.inr rfl) rfl hrange fun _ _ hclean => by cases hclean
  · split
    · split
      · exact finalizeExhausted hrange hsound
      · rename_i cores hbacked
        simp only
        split
        · exact (hholds.backoff hvalidating { v.position with dirty := true } hbacked rfl rfl).1
        · exact (hholds.backoff hvalidating { v.position with dirty := true, requeue := [core] }
            hbacked rfl rfl).2
    · exact finalizeExhausted hrange hsound

theorem finishSoak (hholds : Holds config ccd ledger v) (hflow : v.flow = .running .soak)
    {passed : Bool} (hpassed : passed = true → Slot.soak ∈ ledger.passed) :
    Holds config ccd ledger (v.finishSoak config passed) := by
  have hvalidating : v.flow.validating = true := by rw [hflow]; rfl
  obtain ⟨hsaved, hpos⟩ := hholds.saved hvalidating
  have hordered := hholds.ordered hvalidating
  have hrange := hholds.range.2
  have hsound := hholds.sound hpos
  rw [hsaved] at hpos hsound
  have hslot := hholds.slot .soak hflow (.inr rfl)
  unfold Validator.finishSoak
  split
  · rename_i hpass
    apply moveTo
    · exact hordered
    · exact Nat.le_of_ble_eq_true rfl
    · exact Nat.le_of_ble_eq_true rfl
    · intro _ hclean
      have hseven : v.position.stage = 7 := (hslot (.inr rfl)).stage_soak
      refine (hsound (by omega) hclean).advance fun other stage index hother hpast => ?_
      by_cases hthis : stage = 7
      · subst hthis
        cases hother
        exact .inr (.inl (hpassed hpass))
      · have hle := hother.stage_le
        exact .inl (.inl (by omega))
  · simp only
    have hmoved : Holds config ccd ledger
        ({ v with unattributed := v.unattributed + 1 }.moveTo { v.position with dirty := true }) := by
      apply moveTo
      · exact hordered
      · exact hpos
      · exact hrange
      · intro _ hclean
        cases hclean
    split
    · exact closed (.inl rfl) hmoved.range hmoved.sound
    · exact hmoved

/-! ### Evidence -/

end Holds

namespace Validator

theorem noteDirty_row_stage (v : Validator) (dirtied : Bool) :
    (v.noteDirty dirtied).row.stage = v.row.stage := by
  unfold noteDirty
  split <;> rfl

theorem noteDirty_position_stage (v : Validator) (dirtied : Bool) :
    (v.noteDirty dirtied).position.stage = v.position.stage := by
  unfold noteDirty
  split <;> rfl

theorem noteDirty_cores (v : Validator) (dirtied : Bool) :
    (v.noteDirty dirtied).cores = v.cores := by
  unfold noteDirty
  split <;> rfl

theorem noteDirty_false (v : Validator) : v.noteDirty false = v := by
  unfold noteDirty
  rw [if_neg fun hdirtied => by cases hdirtied.1]

theorem noteDirty_row_dirty (hpos : 0 < v.row.stage) : (v.noteDirty true).row.dirty = true := by
  unfold noteDirty
  rw [if_pos ⟨rfl, hpos⟩]

end Validator

namespace Holds

/-- What evidence against the cores leaves of the row: a dirty pass, or everything. -/
structure EvidenceKeeps (v charged : Validator) : Prop where
  stage : charged.row.stage = v.row.stage
  memory : charged.position.stage = v.position.stage
  clean : 1 ≤ v.row.stage → charged.row.dirty = false →
    charged.row = v.row ∧ profileOf charged.cores = profileOf v.cores

theorem applyMceEvidence_keeps (config : TunerConfig) (v : Validator) (evidence : Evidence) :
    EvidenceKeeps v (v.applyMceEvidence config evidence) := by
  unfold Validator.applyMceEvidence
  split
  · exact ⟨rfl, rfl, fun _ _ => ⟨rfl, rfl⟩⟩
  · rename_i cs hcs
    split
    · exact ⟨rfl, rfl, fun _ _ => ⟨rfl, rfl⟩⟩
    · rename_i hresident
      have hdirtied := penalizeResident_dirties config cs hresident
        (if evidence.corrected then some 1 else none) (!evidence.corrected)
      refine ⟨Validator.noteDirty_row_stage _ _, Validator.noteDirty_position_stage _ _,
        fun hpos hclean => ?_⟩
      simp only [hdirtied] at hclean
      rw [Validator.noteDirty_row_dirty (show 0 < (v.mapCores _).row.stage from hpos)] at hclean
      cases hclean

theorem applyForeignEvidence_keeps (config : TunerConfig) (v : Validator)
    (evidence : List Evidence) : EvidenceKeeps v (v.applyForeignEvidence config evidence) := by
  unfold Validator.applyForeignEvidence
  induction evidence generalizing v with
  | nil => exact ⟨rfl, rfl, fun _ _ => ⟨rfl, rfl⟩⟩
  | cons first rest ih =>
      rw [List.foldl_cons]
      have hfirst := applyMceEvidence_keeps config v first
      have hrest := ih (v.applyMceEvidence config first)
      refine ⟨hrest.stage.trans hfirst.stage, hrest.memory.trans hfirst.memory,
        fun hpos hclean => ?_⟩
      obtain ⟨hrow, hprofile⟩ := hrest.clean (by rw [hfirst.stage]; exact hpos) hclean
      obtain ⟨hrow', hprofile'⟩ := hfirst.clean hpos (hrow ▸ hclean)
      exact ⟨hrow.trans hrow', hprofile.trans hprofile'⟩

/-- Whatever evidence does to the cores, the row that is left answers for no more. -/
theorem evidence (hholds : Holds config ccd ledger v) {charged : Validator}
    (hkeeps : EvidenceKeeps v charged) :
    (charged.row.stage ≤ 9 ∧ charged.position.stage ≤ 9) ∧ RowSound config ccd ledger charged := by
  refine ⟨⟨hkeeps.stage ▸ hholds.range.1, hkeeps.memory ▸ hholds.range.2⟩, fun hpos hle hclean => ?_⟩
  rw [hkeeps.stage] at hpos hle
  obtain ⟨hrow, hprofile⟩ := hkeeps.clean hpos hclean
  rw [hrow] at hclean ⊢
  exact (hholds.sound hpos hle hclean).congr hprofile

theorem leaveForEvidence (hholds : Holds config ccd ledger v) (evidence : List Evidence) :
    Holds config ccd ledger (v.leaveForEvidence config evidence) := by
  obtain ⟨hrange, hsound⟩ := hholds.evidence (applyForeignEvidence_keeps config v evidence)
  unfold Validator.leaveForEvidence
  simp only
  split
  · exact closed (.inl rfl) hrange hsound
  · exact gone (.inl rfl) rfl hrange.1 hsound

theorem leaveSoak (hholds : Holds config ccd ledger v) (hvalidating : v.flow.validating = true)
    (evidence : List Evidence) : Holds config ccd ledger (v.leaveSoak config evidence) := by
  obtain ⟨hsaved, -⟩ := hholds.saved hvalidating
  have hkeeps := applyForeignEvidence_keeps config v evidence
  obtain ⟨hrange, hsound⟩ := hholds.evidence hkeeps
  unfold Validator.leaveSoak
  simp only
  split
  · exact closed (.inl rfl) hrange hsound
  · exact gone (.inl rfl) rfl hrange.2 fun _ _ hclean => by cases hclean

/-- A ledger that has more passed slots answers for as much. -/
theorem mono {later : Ledger} (hholds : Holds config ccd ledger v)
    (hpassed : ∀ slot ∈ ledger.passed, slot ∈ later.passed)
    (htool : ledger.toolMissing = true → later.toolMissing = true)
    (hprofile : later.profile = ledger.profile) (hdied : later.died = ledger.died) :
    Holds config ccd later v where
  saved := hholds.saved
  ordered := hholds.ordered
  range := hholds.range
  away := hholds.away
  sound := fun hpos hle hclean => by
    have hsound := hholds.sound hpos hle hclean
    refine ⟨fun slot stage index hplace hpast => ?_, hsound.profile.trans hprofile.symm,
      hdied.trans hsound.survived⟩
    rcases hsound.covered slot stage index hplace hpast with hin | ⟨hmemory, hmissing⟩
    · exact .inl (hpassed slot hin)
    · exact .inr ⟨hmemory, htool hmissing⟩
  slot := hholds.slot

theorem unmark (hholds : Holds config ccd ledger v) (core : CoreId) :
    Holds config ccd ledger (v.unmark core) := by
  have hcleared := (hholds.mapCores
    (fun cs => if cs.coreId = core then { cs with inTest := false } else cs)
    fun cs => by split <;> exact ⟨rfl, rfl⟩).mapCores
    (fun cs => if cs.coreId ∈ v.underStress then { cs with inTest := false } else cs)
    fun cs => by split <;> exact ⟨rfl, rfl⟩
  exact ⟨hcleared.saved, hcleared.ordered, hcleared.range, hcleared.away, hcleared.sound,
    hcleared.slot⟩

theorem onTestFinished (hholds : Holds config ccd ledger v) {slot : Slot}
    (hflow : v.flow = .running slot) (result : Result)
    (hpassed : passedSlot v (.finished result) = some slot → slot ∈ ledger.passed) :
    Holds config ccd ledger (v.onTestFinished config slot result) := by
  unfold Validator.onTestFinished
  split
  · exact hholds.halt
  rename_i hknown
  rw [not_not] at hknown
  have hcleared := hholds.unmark result.core
  have hrunning : (v.unmark result.core).flow = .running slot := hflow
  have hvalidating : (v.unmark result.core).flow.validating = true := by rw [hrunning]; rfl
  simp only
  cases hending : result.ending with
  | startup =>
      obtain ⟨hrange, hsound⟩ :=
        hcleared.evidence (applyForeignEvidence_keeps config _ result.evidence)
      exact closed (.inl rfl) hrange hsound
  | thermal =>
      simp only
      split
      · exact hcleared.leaveForEvidence _
      · exact hcleared.handleThermalAbort hvalidating
  | apparatus =>
      simp only
      split
      · exact hcleared.leaveForEvidence _
      · exact hcleared.handleApparatusFault hvalidating
  | verdict passed =>
      have hreset : Holds config ccd ledger { v.unmark result.core with apparatusFaults := 0 } :=
        ⟨hcleared.saved, hcleared.ordered, hcleared.range, hcleared.away, hcleared.sound,
          hcleared.slot⟩
      have hcredited : result.evidence = [] → passed = true → slot ∈ ledger.passed :=
        fun hnone hpass => hpassed (by simp [passedSlot, hflow, hending, hnone, hpass, hknown])
      simp only
      split
      · rename_i hsoak
        subst hsoak
        split
        · exact hreset.leaveSoak hvalidating _
        · rename_i hnone
          exact hreset.finishSoak hrunning (hcredited (not_not.mp hnone))
      · split
        · exact hreset.leaveForEvidence _
        · rename_i hnone
          unfold Validator.onValidationTestFinished
          split
          · exact hreset.finishRetest hvalidating _ _
          · rename_i hout
            split
            · rename_i hpass
              exact hreset.passSlot hrunning (by simpa using hout)
                (hcredited (not_not.mp hnone) hpass)
            · exact hreset.failSlot hvalidating _

end Holds

end

end Validation
end Tuner
end CoreCycler
