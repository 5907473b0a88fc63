import CoreCycler.Tuner.PassLedger

/-!
# Completion is earned by one clean pass

Validation is entered from the search and from a resume, with the cursor of its row.  Every step
that moves the profile makes the pass dirty, except what happens to a session between two
processes: where that has made it dirty as well, completion stands for one clean pass.
-/

namespace CoreCycler
namespace Tuner
namespace Validation

open Library

variable {config : TunerConfig} {ccd : CoreId → Option Nat}

section

variable {ledger : Ledger} {v : Validator}

namespace Holds

/-! ## Entering -/

/-- The clamped cursor of a restart has no more behind it than the saved one. -/
theorem past_clamped {saved : Position} {position : Position} (hle : saved.stage ≤ 8)
    (hstage : position.stage = min saved.stage 6) (hcore : position.coreIndex ≤ saved.coreIndex)
    (hhalf : position.halfIndex ≤ saved.halfIndex) {stage index : Nat}
    (hpast : position.Past stage index) : saved.Past stage index := by
  rcases Nat.le_total saved.stage 6 with hearly | hlate
  · have hsame : position.stage = saved.stage := by omega
    have hindex : position.index ≤ saved.index := by
      simp only [Position.index, hsame]
      split
      · exact hcore
      · split
        · exact hhalf
        · exact Nat.le_refl 0
    rcases hpast with hlt | ⟨heq, hlt⟩
    · exact .inl (by omega)
    · exact .inr ⟨by omega, by omega⟩
  · have hsix : position.stage = 6 := by omega
    rcases hpast with hlt | ⟨heq, hlt⟩
    · exact .inl (by omega)
    · simp [Position.index, hsix] at hlt

/-- A dispatch of stage 1 stays there, or goes on to stage 2. -/
theorem runValidationNext_stage1 (config : TunerConfig) (hstage : v.position.stage = 1) (hrow : v.row.stage = 1)
    (env : Dispatch) :
    ((v.runValidationNext config env).row.stage = 1 ∨
      (v.runValidationNext config env).row.stage = 2) ∧
    profileOf (v.runValidationNext config env).cores = profileOf v.cores := by
  have hmarked : ∀ slot cores, (v.launch env slot cores).row = v.row ∧
      profileOf (v.launch env slot cores).cores = profileOf v.cores := fun slot cores => by
    unfold Validator.launch
    split
    · exact ⟨rfl, profileOf_map fun cs => by split <;> exact ⟨rfl, rfl⟩⟩
    · exact ⟨rfl, rfl⟩
  unfold Validator.runValidationNext
  split
  · exact ⟨.inl hrow, rfl⟩
  · simp only [hstage]
    unfold Validator.runValidationStage1
    split
    · exact ⟨.inr rfl, rfl⟩
    · exact ⟨.inl ((hmarked _ _).1 ▸ hrow), (hmarked _ _).2⟩

end Holds

/-- Validation at the first stage, with nothing dispatched yet. -/
def Validator.fresh (ccd : CoreId → Option Nat) (v : Validator) : Validator :=
  (({ v with
    order := coreOrder v.cores, halves := validationHalves ccd (coreOrder v.cores)
    thermalAborts := 0, unattributed := 0 } : Validator).moveTo { stage := 1 }).moveEndurance {}

theorem enterAutoValidation_fresh (hrow : v.row.stage = 0) (logged : CoreId → Bool)
    (env : Dispatch) : v.enterAutoValidation ccd config logged env =
      (v.fresh ccd).runValidationNext config env := by
  unfold Validator.enterAutoValidation
  simp only [hrow]
  rfl

namespace Holds

/-- Validation that begins starts a ledger of its own. -/
theorem begin (config : TunerConfig) (ccd : CoreId → Option Nat) (hrow : v.row.stage = 0)
    (logged : CoreId → Bool) (env : Dispatch) :
    Holds config ccd { profile := profileOf (v.enterAutoValidation ccd config logged env).cores }
        (v.enterAutoValidation ccd config logged env) ∧
      (v.enterAutoValidation ccd config logged env).row.stage ≠ 0 := by
  rw [enterAutoValidation_fresh hrow]
  have hstart : Holds config ccd { profile := profileOf v.cores } (v.fresh ccd) :=
    (startOver (v := ({ v with
      order := coreOrder v.cores, halves := validationHalves ccd (coreOrder v.cores)
      thermalAborts := 0, unattributed := 0 } : Validator)) ⟨rfl, rfl⟩).moveEndurance {}
  obtain ⟨hstage, hprofile⟩ := runValidationNext_stage1 (v := v.fresh ccd) config rfl rfl env
  refine ⟨?_, by omega⟩
  rw [hprofile]
  exact hstart.runValidationNext rfl (show 1 ≠ 8 by decide) env fun _ _ hseven => by omega

end Holds

/-- Validation at the cursor of its row, with nothing dispatched yet. -/
def Validator.restored (config : TunerConfig) (ccd : CoreId → Option Nat) (v : Validator)
    (stage : Nat) (requeue : List CoreId) : Validator :=
  (({ v with
    order := coreOrder v.cores, halves := validationHalves ccd (coreOrder v.cores)
    thermalAborts := 0 } : Validator).moveTo
      { stage := stage
        coreIndex := min v.row.coreIndex (coreOrder v.cores).length
        halfIndex := min v.row.halfIndex (validationHalves ccd (coreOrder v.cores)).length
        dirty := v.position.dirty || v.row.dirty
        requeue := requeue }).moveEndurance
    { round := v.enduranceRow.round
      workload := min v.enduranceRow.workload config.enduranceWorkloads.length
      index := min v.enduranceRow.index (coreOrder v.cores).length }

/-- Validation that continues dispatches from the cursor of its row, clamped. -/
theorem enterAutoValidation_restored (config : TunerConfig) (ccd : CoreId → Option Nat)
    (hrow : 1 ≤ v.row.stage) (logged : CoreId → Bool) (env : Dispatch) : ∃ stage requeue,
      (v.row.stage = 9 ∧ stage = 9 ∨ v.row.stage ≠ 9 ∧ stage = min v.row.stage 6) ∧
      v.enterAutoValidation ccd config logged env =
        if requeue ≠ [] then (v.restored config ccd stage requeue).runValidationRequeue env
        else (v.restored config ccd stage requeue).runValidationNext config env := by
  unfold Validator.enterAutoValidation
  simp only [show 0 < v.row.stage from hrow, if_true]
  refine ⟨if v.row.stage = 9 then 9 else min v.row.stage 6, _, ?_, rfl⟩
  split
  · rename_i hnine
    exact .inl ⟨hnine, rfl⟩
  · rename_i hnine
    exact .inr ⟨hnine, rfl⟩

namespace Holds

/-- Validation that continues from its row is as sound as the row. -/
theorem continued (hrow : 1 ≤ v.row.stage) (hrange : v.row.stage ≤ 9)
    (hsound : v.position.dirty = false → RowSound config ccd ledger v) (logged : CoreId → Bool) (env : Dispatch)
    (hmissing : env.memoryTool = false →
      (v.enterAutoValidation ccd config logged env).row.stage = 7 → ledger.toolMissing = true) :
    Holds config ccd ledger (v.enterAutoValidation ccd config logged env) := by
  obtain ⟨stage, requeue, hstage, hentered⟩ :=
    enterAutoValidation_restored config ccd hrow logged env
  rw [hentered] at hmissing ⊢
  have hmoved : Holds config ccd ledger (v.restored config ccd stage requeue) := by
    apply moveEndurance
    apply moveTo
    · exact ⟨rfl, rfl⟩
    · show 1 ≤ stage
      omega
    · show stage ≤ 9
      omega
    · intro hle hclean
      obtain ⟨hmemory, hdirty⟩ := Bool.or_eq_false_iff.mp hclean
      have hmin : stage = min v.row.stage 6 := by
        rcases hstage with ⟨-, rfl⟩ | ⟨-, hmin⟩
        · simp at hle
        · exact hmin
      have hfrom : v.row.stage ≤ 8 := by omega
      exact (hsound hmemory hrow hfrom hdirty).advance fun slot at' index _ hpast =>
        .inl (past_clamped hfrom hmin (Nat.min_le_left _ _) (Nat.min_le_left _ _) hpast)
  split
  · exact hmoved.runValidationRequeue rfl env
  · rename_i hempty
    rw [if_neg hempty] at hmissing
    exact hmoved.runValidationNext rfl (show stage ≠ 8 by omega) env
      fun htool _ hseven => hmissing htool hseven

end Holds

/-- The ledger after a step that may have begun validation. -/
def Ledger.enteredFrom (ledger : Ledger) (v next : Validator) : Ledger :=
  if v.row.stage = 0 ∧ next.row.stage ≠ 0 then { profile := profileOf next.cores } else ledger

theorem Ledger.enteredFrom_zero {next : Validator} (hstage : next.row.stage = 0) :
    ledger.enteredFrom v next = ledger := by
  unfold enteredFrom
  rw [if_neg fun hentered => hentered.2 hstage]

namespace Holds

/-- A step that leaves the stage of the row enters nothing. -/
theorem stays {next : Validator} (hholds : Holds config ccd ledger next)
    (hstage : next.row.stage = v.row.stage) :
    Holds config ccd (ledger.enteredFrom v next) next := by
  unfold Ledger.enteredFrom
  rwa [if_neg fun hentered => hentered.2 (hstage.trans hentered.1)]

theorem enterAutoValidation (hrange : v.row.stage ≤ 9)
    (hsound : v.position.dirty = false → RowSound config ccd ledger v) (logged : CoreId → Bool) (env : Dispatch)
    (hmissing : env.memoryTool = false →
      (v.enterAutoValidation ccd config logged env).row.stage = 7 → ledger.toolMissing = true) :
    Holds config ccd (ledger.enteredFrom v (v.enterAutoValidation ccd config logged env))
      (v.enterAutoValidation ccd config logged env) := by
  unfold Ledger.enteredFrom
  by_cases hrow : v.row.stage = 0
  · obtain ⟨hholds, hpos⟩ := begin config ccd hrow logged env
    rw [if_pos ⟨hrow, hpos⟩]
    exact hholds
  · rw [if_neg fun hentered => hrow hentered.1]
    exact continued (by omega) hrange hsound logged env hmissing

theorem finalizeSession (haway : v.position.stage = 0) (hrange : v.row.stage ≤ 9)
    (hsound : v.position.dirty = false → RowSound config ccd ledger v) (env : Dispatch) :
    Holds config ccd (ledger.enteredFrom v (v.finalizeSession env)) (v.finalizeSession env) := by
  unfold Validator.finalizeSession
  split
  · rw [Ledger.enteredFrom_zero haway]
    exact closed (.inl rfl) (by simp [Validator.halt, haway]) fun hpos => by
      simp [Validator.halt, haway] at hpos
  · split
    · rw [Ledger.enteredFrom_zero rfl]
      exact closed (.inr rfl) (by simp [Validator.moveTo]) fun hpos => by
        simp [Validator.moveTo] at hpos
    · rename_i hclean _
      refine stays (closed (.inl rfl) ⟨hrange, ?_⟩ (hsound (by simpa using hclean))) rfl
      show v.position.stage ≤ 9
      omega

theorem completeSession (haway : v.position.stage = 0) (hrange : v.row.stage ≤ 9)
    (hsound : v.position.dirty = false → RowSound config ccd ledger v) (logged : CoreId → Bool) (env : Dispatch)
    (hmissing : env.memoryTool = false →
      (v.completeSession ccd config logged env).row.stage = 7 → ledger.toolMissing = true) :
    Holds config ccd (ledger.enteredFrom v (v.completeSession ccd config logged env))
      (v.completeSession ccd config logged env) := by
  unfold Validator.completeSession at hmissing ⊢
  split
  · rename_i hvalidates
    rw [if_pos hvalidates] at hmissing
    exact enterAutoValidation hrange hsound logged env hmissing
  · exact finalizeSession haway hrange hsound env

/-! ## Resuming -/

theorem continueSession (haway : v.position.stage = 0) (hrange : v.row.stage ≤ 9)
    (hsound : RowSound config ccd ledger v) (resumption : Resumption)
    (hmissing : resumption.env.memoryTool = false →
      (v.continueSession ccd config resumption).row.stage = 7 → ledger.toolMissing = true) :
    Holds config ccd (ledger.enteredFrom v (v.continueSession ccd config resumption))
      (v.continueSession ccd config resumption) := by
  unfold Validator.continueSession at hmissing ⊢
  split
  · rename_i hvalidates
    rw [if_pos hvalidates] at hmissing
    exact enterAutoValidation hrange (fun _ => hsound) _ _ hmissing
  · exact stays (gone (.inl rfl) haway hrange hsound) rfl

/-- Some ledger answers for every cursor over the cores. -/
theorem exists_covering (config : TunerConfig) (ccd : CoreId → Option Nat)
    (cores : List CoreState) :
    ∃ ledger : Ledger, ledger.toolMissing = true ∧
      ∀ position, Sound config ccd ledger cores position := by
  refine ⟨{
    passed := (coreOrder cores).map .solo ++ (coreOrder cores).map .spectrum ++
      (List.range (validationHalves ccd (coreOrder cores)).length).map .half ++
      [.allCores, .transitions, .memory, .soak]
    profile := profileOf cores, toolMissing := true }, rfl, fun position => ⟨?_, rfl, rfl⟩⟩
  intro slot stage index hplace _
  refine .inl ?_
  cases hplace with
  | solo hcore | spectrum _ hcore => simp [List.mem_of_getElem? hcore]
  | half hindex => simp [hindex]
  | _ => simp

/-- The dispatch of a saved cursor leaves it saved, or in endurance. -/
theorem runValidationNext_saved (hsaved : v.row = v.position) (hpos : 1 ≤ v.position.stage)
    (hle : v.position.stage ≤ 9) (hstage : v.position.stage ≠ 8) (env : Dispatch) :
    (v.runValidationNext config env).row = (v.runValidationNext config env).position ∨
      (v.runValidationNext config env).row.stage = 9 := by
  -- A launch leaves the position alone, and a move saves it.
  have hlaunch : ∀ slot cores, (v.launch env slot cores).row = (v.launch env slot cores).position :=
    fun slot cores => by
      unfold Validator.launch
      split
      · exact hsaved
      · exact hsaved
  unfold Validator.runValidationNext
  split
  · exact .inl hsaved
  · split
    · unfold Validator.runValidationStage1
      split
      · exact .inl rfl
      · exact .inl (hlaunch _ _)
    · exact .inl (hlaunch _ _)
    · unfold Validator.runValidationStage3
      split
      · exact .inl rfl
      · exact .inl (hlaunch _ _)
    · split
      · exact .inl (hlaunch _ _)
      · exact .inl rfl
    · unfold Validator.runValidationStage5
      split
      · split
        · exact .inl rfl
        · exact .inl (hlaunch _ _)
      · exact .inl rfl
    · split
      · exact .inl (hlaunch _ _)
      · exact .inl rfl
    · split
      · exact .inl (hlaunch _ _)
      · exact .inl rfl
    · rename_i hnine
      unfold Validator.runEnduranceNext
      simp only
      split
      · unfold Validator.finishEnduranceRound
        cases env.annealCandidate with
        | none => exact .inl rfl
        | some core => exact .inr hnine
      · split
        · exact .inl (hlaunch _ _)
        · split
          · exact .inl (hlaunch _ _)
          · exact .inl hsaved
    · exact absurd (by apply stage_sentinel <;> assumption) hstage

theorem enterAutoValidation_saved (hrange : v.row.stage ≤ 9) (logged : CoreId → Bool)
    (env : Dispatch) :
    (v.enterAutoValidation ccd config logged env).row =
        (v.enterAutoValidation ccd config logged env).position ∨
      (v.enterAutoValidation ccd config logged env).row.stage = 9 := by
  have hrequeue : ∀ v : Validator, v.row = v.position →
      (v.runValidationRequeue env).row = (v.runValidationRequeue env).position :=
    fun v hsaved => by
      unfold Validator.runValidationRequeue
      split
      · exact hsaved
      · split
        · rfl
        · unfold Validator.launch
          split
          · exact hsaved
          · exact hsaved
  by_cases hrow : v.row.stage = 0
  · rw [enterAutoValidation_fresh hrow]
    exact runValidationNext_saved rfl (Nat.le_refl 1) (show 1 ≤ 9 by decide)
      (show 1 ≠ 8 by decide) env
  · have hpos : 1 ≤ v.row.stage := by omega
    obtain ⟨stage, requeue, hstage, hentered⟩ :=
      enterAutoValidation_restored config ccd hpos logged env
    rw [hentered]
    split
    · exact .inl (hrequeue _ rfl)
    · exact runValidationNext_saved rfl (show 1 ≤ stage by omega) (show stage ≤ 9 by omega)
        (show stage ≠ 8 by omega) env

/-- A pass that is invalidated answers for nothing more. -/
theorem invalidatePass {other : Ledger} (hholds : Holds config ccd other v)
    (hsaved : v.row = v.position ∨ v.row.stage = 9) :
    Holds config ccd ledger v.invalidatePass := by
  unfold Validator.invalidatePass
  split
  · rename_i hdirty
    refine ⟨hholds.saved, hholds.ordered, hholds.range, hholds.away, fun _ hle hclean => ?_,
      hholds.slot⟩
    rcases hsaved with hrow | hnine
    · rw [hrow, hdirty] at hclean
      cases hclean
    · omega
  · exact {
      saved := fun hvalidating => by
        obtain ⟨hrow, hpos⟩ := hholds.saved hvalidating
        exact ⟨rfl, hrow ▸ hpos⟩
      ordered := hholds.ordered
      range := ⟨hholds.range.2, hholds.range.2⟩
      away := hholds.away
      sound := fun _ _ hclean => by cases hclean
      slot := hholds.slot }

/-- After an incident the pass is invalidated, whatever it had come to. -/
theorem continued_invalidated (haway : v.position.stage = 0) (hrange : v.row.stage ≤ 9)
    (hvalidates : wasValidating config v.cores = true) (resumption : Resumption) :
    Holds config ccd ledger (v.continueSession ccd config resumption).invalidatePass := by
  obtain ⟨covering, htool, hcovers⟩ := exists_covering config ccd v.cores
  have hcontinued : Holds config ccd
      (covering.enteredFrom v (v.continueSession ccd config resumption))
      (v.continueSession ccd config resumption) :=
    continueSession haway hrange (fun _ _ _ => hcovers v.row) resumption fun _ _ => htool
  refine hcontinued.invalidatePass ?_
  unfold Validator.continueSession
  rw [if_pos hvalidates]
  exact enterAutoValidation_saved hrange _ _

end Holds

/-- The engine as a resume resets it, before it decides where to go. -/
def Validator.reset (v : Validator) (resumption : Resumption) : Validator :=
  { v with
    cores := resumption.cores
    position := {}
    endurance := {}
    inRequeue := false
    underStress := []
    apparatusFaults := if resumption.fresh then 0 else v.apparatusFaults
    paused := false }

namespace Holds

/-- A resume leaves the row as sound as it finds it. -/
theorem resume {later : Ledger} (hrange : v.row.stage ≤ 9) (resumption : Resumption)
    (hsound : resumption.aftermath ≠ .charged true →
      ¬ (resumption.aftermath = .incident ∧ wasValidating config resumption.cores = true) →
      RowSound config ccd later (v.reset resumption))
    (hmissing : resumption.env.memoryTool = false →
      (v.resume ccd config resumption).row.stage = 7 → later.toolMissing = true) :
    Holds config ccd (later.enteredFrom v (v.resume ccd config resumption))
      (v.resume ccd config resumption) := by
  cases haftermath : resumption.aftermath with
  | quiet =>
      have hresumed : v.resume ccd config resumption =
          (v.reset resumption).continueSession ccd config resumption := by
        unfold Validator.resume
        rw [haftermath]
        rfl
      rw [hresumed] at hmissing ⊢
      refine continueSession (v := v.reset resumption) rfl hrange (hsound ?_ ?_) resumption hmissing
      all_goals simp [haftermath]
  | hunt died =>
      have hresumed : v.resume ccd config resumption =
          { v.reset resumption with flow := .hunting } := by
        unfold Validator.resume
        rw [haftermath]
        rfl
      rw [hresumed] at hmissing ⊢
      refine stays (gone (.inr rfl) rfl hrange (hsound ?_ ?_)) rfl
      all_goals simp [haftermath]
  | charged dirtied =>
      have hresumed : v.resume ccd config resumption =
          ((v.reset resumption).noteDirty dirtied).continueSession ccd config resumption := by
        unfold Validator.resume
        rw [haftermath]
        rfl
      rw [hresumed] at hmissing ⊢
      have hstage := Validator.noteDirty_row_stage (v.reset resumption) dirtied
      -- A crash that dirtied the pass leaves nothing to show; otherwise the row is as it was.
      have hsound' : RowSound config ccd later ((v.reset resumption).noteDirty dirtied) := by
        intro hpos hle hclean
        cases dirtied with
        | true =>
            rw [hstage] at hpos
            rw [Validator.noteDirty_row_dirty hpos] at hclean
            cases hclean
        | false =>
            rw [Validator.noteDirty_false] at hpos hle hclean ⊢
            exact hsound (by simp [haftermath]) (by simp [haftermath]) hpos hle hclean
      have hcontinued : Holds config ccd
          (later.enteredFrom ((v.reset resumption).noteDirty dirtied)
            (((v.reset resumption).noteDirty dirtied).continueSession ccd config resumption))
          (((v.reset resumption).noteDirty dirtied).continueSession ccd config resumption) :=
        continueSession (Validator.noteDirty_position_stage _ _) (hstage ▸ hrange) hsound'
          resumption hmissing
      unfold Ledger.enteredFrom at hcontinued ⊢
      rwa [hstage] at hcontinued
  | incident =>
      have hresumed : v.resume ccd config resumption =
          let counted := { v.reset resumption with unattributed := v.unattributed + 1 }
          if config.maxUnattributedCrashHunts ≤ (counted.unattributed : Int) then
            { counted with row := { v.row with dirty := true }, paused := true }.halt
          else if wasValidating config counted.cores then
            (counted.continueSession ccd config resumption).invalidatePass
          else counted.continueSession ccd config resumption := by
        unfold Validator.resume
        rw [haftermath]
        rfl
      rw [hresumed] at hmissing ⊢
      simp only
      split
      · exact stays (closed (.inl rfl) ⟨hrange, Nat.zero_le _⟩ fun _ _ hclean => by cases hclean) rfl
      · split
        · rename_i hvalidates
          exact continued_invalidated
            (v := { v.reset resumption with unattributed := v.unattributed + 1 })
            rfl hrange hvalidates resumption
        -- Outside of the validation the incident is only counted.
        · rename_i hidle
          unfold Validator.continueSession
          rw [if_neg hidle]
          refine stays (gone (.inl rfl) rfl hrange (hsound ?_ fun hvalidates => ?_)) rfl
          · simp [haftermath]
          · exact hidle hvalidates.2
  | refused =>
      have hresumed : v.resume ccd config resumption = (v.reset resumption).halt := by
        unfold Validator.resume
        rw [haftermath]
        rfl
      rw [hresumed] at hmissing ⊢
      refine stays (closed (.inl rfl) ⟨hrange, Nat.zero_le _⟩ (hsound ?_ ?_)) rfl
      all_goals simp [haftermath]

/-! ## Steps -/

/-- The ledger of a step that does not enter stage 1. -/
theorem follow_of_not {event : Event} {next : Validator} (hout : entersStage1 v next event = false) :
    ledger.follow v event next =
      { ledger with
        passed := (passedSlot v event).toList ++ ledger.passed
        died := ledger.died || event.died
        toolMissing := ledger.toolMissing || skipsMemory v next event } := by
  unfold Ledger.follow
  rw [if_neg (by simp [hout])]

/-- Nothing that outlives the machine is lost from the ledger. -/
theorem followed (hholds : Holds config ccd ledger v) (event : Event) (next : Validator)
    (hout : entersStage1 v next event = false) (hlived : event.died = false) :
    Holds config ccd (ledger.follow v event next) v := by
  rw [follow_of_not hout]
  exact hholds.mono (fun slot hslot => List.mem_append_right _ hslot)
    (fun hmissing => by simp [hmissing]) rfl (by simp [hlived])

theorem fire_next (hholds : Holds config ccd ledger v) (hflow : v.flow = .next) (env : Dispatch) :
    Holds config ccd (ledger.follow v (.fire env) (v.runValidationNext config env))
      (v.runValidationNext config env) := by
  have hvalidating : v.flow.validating = true := by rw [hflow]; rfl
  obtain ⟨hsaved, hpos⟩ := hholds.saved hvalidating
  -- Only at the sentinel can a pass begin again, which starts the ledger over.
  by_cases hsentinel : v.position.stage = 8
  · by_cases hpaused : v.paused = true
    · have hhalted : v.runValidationNext config env = v.halt := by
        unfold Validator.runValidationNext
        rw [if_pos hpaused]
      rw [hhalted]
      refine (hholds.followed (.fire env) v.halt ?_ rfl).halt
      have hrow : v.halt.row.stage = 8 := by rw [← hsentinel, ← hsaved]; rfl
      simp [entersStage1, hrow]
    · have hsentineled : v.runValidationNext config env = v.allStagesComplete config env := by
        unfold Validator.runValidationNext
        rw [if_neg hpaused, hsentinel]
        rfl
      rw [hsentineled]
      have hcomplete := hholds.allStagesComplete hvalidating env
      by_cases hdirty : v.position.dirty = true
      · rw [if_pos hdirty] at hcomplete
        have hagain : v.allStagesComplete config env = v.moveTo { stage := 1 } := by
          unfold Validator.allStagesComplete
          rw [if_pos hdirty]
        rw [hagain] at hcomplete ⊢
        have hentered : entersStage1 v (v.moveTo { stage := 1 }) (.fire env) = true := by
          simp [entersStage1, hsaved, hsentinel, Validator.moveTo]
        unfold Ledger.follow
        rw [if_pos hentered]
        exact hcomplete
      · have hout : entersStage1 v (v.allStagesComplete config env) (.fire env) = false := by
          have hrow : (v.allStagesComplete config env).row.stage ≠ 1 := by
            unfold Validator.allStagesComplete Validator.finalizeSession
            rw [if_neg hdirty]
            split
            · simp [Validator.enterEndurance, Validator.moveTo, Validator.moveEndurance]
            · split
              · simp [Validator.moveTo]
              · show v.row.stage ≠ 1
                rw [hsaved]
                omega
          simp [entersStage1, hrow]
        have hclean := (hholds.followed (.fire env) (v.allStagesComplete config env) hout
          rfl).allStagesComplete hvalidating env
        rwa [if_neg hdirty] at hclean
  · have hout : entersStage1 v (v.runValidationNext config env) (.fire env) = false := by
      simp [entersStage1, hsaved, hsentinel]
    refine (hholds.followed (.fire env) _ hout rfl).runValidationNext hvalidating hsentinel env
      fun htool hat hseven => ?_
    rw [follow_of_not hout]
    simp [skipsMemory, htool, hsaved, hat, hseven]

theorem fire_requeue (hholds : Holds config ccd ledger v) (hflow : v.flow = .requeue)
    (env : Dispatch) :
    Holds config ccd (ledger.follow v (.fire env) (v.runValidationRequeue env))
      (v.runValidationRequeue env) := by
  have hvalidating : v.flow.validating = true := by rw [hflow]; rfl
  obtain ⟨hsaved, -⟩ := hholds.saved hvalidating
  have hrow : (v.runValidationRequeue env).row = v.row := by
    unfold Validator.runValidationRequeue Validator.launch
    split
    · rfl
    · split
      · exact hsaved.symm
      · split
        · rfl
        · rfl
  have hout : entersStage1 v (v.runValidationRequeue env) (.fire env) = false := by
    simp only [entersStage1, hrow, Bool.and_eq_false_iff, decide_eq_false_iff_not]
    omega
  exact (hholds.followed (.fire env) _ hout rfl).runValidationRequeue hvalidating env

theorem finished (hholds : Holds config ccd ledger v) {slot : Slot} (hflow : v.flow = .running slot)
    (result : Result) :
    Holds config ccd
      (ledger.follow v (.finished result) (v.onTestFinished config slot result))
      (v.onTestFinished config slot result) := by
  refine (hholds.followed (.finished result) _ rfl rfl).onTestFinished hflow result fun hpassed => ?_
  rw [follow_of_not rfl, hpassed]
  exact List.mem_cons_self

/-- The search comes back, with the pass made dirty if the profile has moved. -/
theorem returned (hholds : Holds config ccd ledger v) (haway : v.position.stage = 0)
    (cores : List CoreState) (dirtied : Bool) (logged : CoreId → Bool) (env : Dispatch)
    (hkeeps : KeepsPass config v (.returned cores dirtied logged env)) {next : Validator}
    (hnext : next = ({ v with cores := cores }.noteDirty dirtied).completeSession ccd config
      logged env) :
    Holds config ccd (ledger.follow v (.returned cores dirtied logged env) next) next := by
  generalize hlater : ({ ledger with
      toolMissing := ledger.toolMissing ||
        skipsMemory v next (.returned cores dirtied logged env) } : Ledger) = later
  have hfollow : ledger.follow v (.returned cores dirtied logged env) next =
      later.enteredFrom v next := by
    subst hlater
    unfold Ledger.follow Ledger.enteredFrom entersStage1
    simp [passedSlot, Event.died]
  have hstage := Validator.noteDirty_row_stage { v with cores := cores } dirtied
  have hholds : Holds config ccd later v := by
    subst hlater
    exact hholds.mono (fun _ hslot => hslot) (fun hmissing => by simp [hmissing]) rfl rfl
  have hsound : ({ v with cores := cores }.noteDirty dirtied).position.dirty = false →
      RowSound config ccd later ({ v with cores := cores }.noteDirty dirtied) := by
    intro hmemory hpos hle hclean
    cases dirtied with
    | true =>
        rw [hstage] at hpos
        rw [Validator.noteDirty_row_dirty hpos] at hclean
        cases hclean
    | false =>
        rw [Validator.noteDirty_false] at hmemory hpos hle hclean ⊢
        rcases hkeeps with hmember | hprofile | hdirty | hdirty | hdirtied
        · simp only [List.mem_cons, List.not_mem_nil, or_false] at hmember
          have hcases : v.row.stage = 0 ∨ v.row.stage = 9 := hmember
          have hpos' : 1 ≤ v.row.stage := hpos
          have hle' : v.row.stage ≤ 8 := hle
          omega
        · exact (hholds.sound hpos hle hclean).congr hprofile
        · exact absurd hmemory (by simp [hdirty])
        · exact absurd hclean (by simp [hdirty])
        · cases hdirtied
  have hcompleted : Holds config ccd
      (later.enteredFrom ({ v with cores := cores }.noteDirty dirtied) next) next := by
    rw [hnext]
    refine completeSession ?_ (hstage ▸ hholds.range.1) hsound logged env fun htool hseven => ?_
    · exact (Validator.noteDirty_position_stage { v with cores := cores } dirtied).trans haway
    · subst hlater
      simp [skipsMemory, htool, hnext, hseven]
  rw [hfollow]
  unfold Ledger.enteredFrom at hcompleted ⊢
  rwa [hstage] at hcompleted

theorem resumed (hholds : Holds config ccd ledger v) (resumption : Resumption)
    (hkeeps : KeepsPass config v (.resume resumption)) :
    Holds config ccd
      (ledger.follow v (.resume resumption) (v.resume ccd config resumption))
      (v.resume ccd config resumption) := by
  generalize hlater : ({ ledger with
      died := ledger.died || resumption.aftermath.died
      toolMissing := ledger.toolMissing ||
        skipsMemory v (v.resume ccd config resumption) (.resume resumption) } : Ledger) = later
  have hfollow : ledger.follow v (.resume resumption) (v.resume ccd config resumption) =
      later.enteredFrom v (v.resume ccd config resumption) := by
    subst hlater
    unfold Ledger.follow Ledger.enteredFrom entersStage1
    simp [passedSlot, Event.died]
  rw [hfollow]
  refine resume hholds.range.1 resumption (fun huncharged hquiet hpos hle hclean => ?_)
    fun htool hseven => ?_
  · rcases hkeeps with hmember | hdirty | ⟨hprofile, hlived⟩ | hcharged | hincident
    · simp only [List.mem_cons, List.not_mem_nil, or_false] at hmember
      have hcases : v.row.stage = 0 ∨ v.row.stage = 9 := hmember
      have hpos' : 1 ≤ v.row.stage := hpos
      have hle' : v.row.stage ≤ 8 := hle
      omega
    · rw [show (v.reset resumption).row = v.row from rfl, hdirty] at hclean
      cases hclean
    · have hsound : Sound config ccd ledger resumption.cores v.row :=
        (hholds.sound hpos hle hclean).congr hprofile
      subst hlater
      refine ⟨fun slot stage index hplace hpast => ?_, hsound.profile,
        by simp [hsound.survived, hlived]⟩
      rcases hsound.covered slot stage index hplace hpast with hin | ⟨hmemory, hmissing⟩
      · exact .inl hin
      · exact .inr ⟨hmemory, by simp [hmissing]⟩
    · exact absurd hcharged huncharged
    · exact absurd hincident hquiet
  · subst hlater
    simp [skipsMemory, htool, hseven]

end Holds

/-- **One step.**  What a step does to the engine, the ledger follows. -/
theorem Holds.step (hholds : Holds config ccd ledger v) (event : Event)
    (hkeeps : KeepsPass config v event) {next : Validator}
    (hnext : step ccd config v event = some next) :
    Holds config ccd (ledger.follow v event next) next := by
  cases event with
  | fire env =>
      simp only [Validation.step] at hnext
      split at hnext
      · rename_i hflow
        obtain rfl := Option.some.inj hnext
        exact hholds.fire_next hflow env
      · rename_i hflow
        obtain rfl := Option.some.inj hnext
        exact hholds.fire_requeue hflow env
      · cases hnext
  | finished result =>
      simp only [Validation.step] at hnext
      split at hnext
      · rename_i slot hflow
        rw [Option.ite_none_left_eq_some] at hnext
        obtain rfl := Option.some.inj hnext.2
        exact hholds.finished hflow result
      · cases hnext
  | pause =>
      simp only [Validation.step] at hnext
      split at hnext
      · cases hnext
      · obtain rfl := Option.some.inj hnext
        have hsame := hholds.followed .pause { v with paused := true } rfl rfl
        exact ⟨hsame.saved, hsame.ordered, hsame.range, hsame.away, hsame.sound, hsame.slot⟩
  | abort =>
      simp only [Validation.step] at hnext
      split at hnext
      · cases hnext
      · obtain rfl := Option.some.inj hnext
        exact (hholds.followed .abort v.stopAndRestore rfl rfl).stopAndRestore
  | returned cores dirtied logged env =>
      simp only [Validation.step] at hnext
      split at hnext
      · rename_i hback
        exact hholds.returned (hholds.away hback.1) cores dirtied logged env hkeeps
          (Option.some.inj hnext).symm
      · cases hnext
  | resume resumption =>
      simp only [Validation.step] at hnext
      split at hnext
      · cases hnext
      · obtain rfl := Option.some.inj hnext
        exact hholds.resumed resumption hkeeps

/-! ## Every run -/

theorem not_declares_launch (v : Validator) (env : Dispatch) (slot : Slot) (cores : List CoreId) :
    ¬ Declares v (v.launch env slot cores) := by
  unfold Declares Validator.launch
  split
  · rintro (hflow | ⟨hrow, hnine⟩)
    · cases hflow
    · exact hrow hnine
  · rintro (hflow | ⟨hrow, hnine⟩)
    · cases hflow
    · exact hrow hnine

theorem not_declares_halt (v : Validator) : ¬ Declares v v.halt := by
  rintro (hflow | ⟨hrow, hnine⟩)
  · cases hflow
  · exact hrow hnine

theorem not_declares_moveTo (v : Validator) {position : Position}
    (hstage : position.stage = 9 → v.row.stage = 9) : ¬ Declares v (v.moveTo position) := by
  rintro (hflow | ⟨hrow, hnine⟩)
  · cases hflow
  · exact hrow (hstage hnine)

/-- Only the sentinel of a clean pass declares it. -/
theorem declares_at_sentinel (hholds : Holds config ccd ledger v) {env : Dispatch}
    {next : Validator} (hnext : step ccd config v (.fire env) = some next)
    (hdeclares : Declares v next) : v.row.stage = 8 ∧ v.row.dirty = false := by
  simp only [Validation.step] at hnext
  split at hnext
  · rename_i hflow
    have hvalidating : v.flow.validating = true := by rw [hflow]; rfl
    obtain ⟨hsaved, hpos⟩ := hholds.saved hvalidating
    obtain rfl := Option.some.inj hnext
    have hrange := hholds.range.1
    rw [hsaved] at hpos hrange ⊢
    -- Every stage in front of the sentinel launches a slot or moves on, and declares nothing.
    unfold Validator.runValidationNext at hdeclares
    split at hdeclares
    · exact absurd hdeclares (not_declares_halt v)
    · split at hdeclares
      · unfold Validator.runValidationStage1 at hdeclares
        split at hdeclares
        · exact absurd hdeclares (not_declares_moveTo v (by simp))
        · exact absurd hdeclares (not_declares_launch v env _ _)
      · exact absurd hdeclares (not_declares_launch v env _ _)
      · unfold Validator.runValidationStage3 at hdeclares
        split at hdeclares
        · exact absurd hdeclares (not_declares_moveTo v (by simp))
        · exact absurd hdeclares (not_declares_launch v env _ _)
      · split at hdeclares
        · exact absurd hdeclares (not_declares_launch v env _ _)
        · exact absurd hdeclares (not_declares_moveTo v (by simp))
      · unfold Validator.runValidationStage5 at hdeclares
        split at hdeclares
        · split at hdeclares
          · exact absurd hdeclares (not_declares_moveTo v (by simp))
          · exact absurd hdeclares (not_declares_launch v env _ _)
        · exact absurd hdeclares (not_declares_moveTo v (by simp))
      · split at hdeclares
        · exact absurd hdeclares (not_declares_launch v env _ _)
        · exact absurd hdeclares (not_declares_moveTo v (by simp))
      · split at hdeclares
        · exact absurd hdeclares (not_declares_launch v env _ _)
        · exact absurd hdeclares (not_declares_moveTo v (by simp))
      · -- Endurance goes on, whatever it finds.
        rename_i hnine
        have hcompleted : (v.runEnduranceNext config env).flow = .completed := by
          rcases hdeclares with hcompleted | ⟨hrow, -⟩
          · exact hcompleted
          · exact absurd (hsaved ▸ hnine) hrow
        unfold Validator.runEnduranceNext Validator.finishEnduranceRound Validator.launch
          at hcompleted
        cases hcandidate : env.annealCandidate <;> simp only [hcandidate] at hcompleted <;>
          (repeat' split at hcompleted) <;> cases hcompleted
      · have hsentinel : v.position.stage = 8 := by
          apply Holds.stage_sentinel <;> assumption
        refine ⟨hsentinel, ?_⟩
        -- A dirty pass starts over where a clean one is declared.
        by_contra hdirty
        rw [Bool.not_eq_false] at hdirty
        unfold Validator.allStagesComplete at hdeclares
        rw [if_pos hdirty] at hdeclares
        exact absurd hdeclares (not_declares_moveTo v (by simp))
  · obtain rfl := Option.some.inj hnext
    rename_i hflow
    have hvalidating : v.flow.validating = true := by rw [hflow]; rfl
    obtain ⟨hsaved, -⟩ := hholds.saved hvalidating
    unfold Validator.runValidationRequeue at hdeclares
    split at hdeclares
    · exact absurd hdeclares (not_declares_halt v)
    · split at hdeclares
      · exact absurd hdeclares (not_declares_moveTo { v with inRequeue := false } (by simp [hsaved]))
      · exact absurd hdeclares (not_declares_launch { v with inRequeue := true } env _ _)
  · cases hnext

/-- The run keeps its ledger. -/
theorem holds_of_reachable {w : PassWatch}
    (hreach : (passSystem config ccd).ReachableBy
      (fun w event => KeepsPass config w.validator event) w) :
    Holds config ccd w.ledger w.validator := by
  have hstart : ∀ w : PassWatch, (passSystem config ccd).Start w →
      Holds config ccd w.ledger w.validator := fun w ⟨hflow, hrow, hposition⟩ =>
    Holds.gone (.inl hflow) (by rw [hposition]) (by simp [hrow]) fun hpos => by simp [hrow] at hpos
  have hstep : ∀ (w : PassWatch) event next, Holds config ccd w.ledger w.validator →
      KeepsPass config w.validator event → (passSystem config ccd).step w event = some next →
      Holds config ccd next.ledger next.validator := fun w event next hholds hkeeps hnext => by
    obtain ⟨moved, hmoved, rfl⟩ := Option.map_eq_some_iff.mp hnext
    exact hholds.step event hkeeps hmoved
  exact hreach.invariant hstart hstep

/-- **Completion is earned by one clean pass.**  Where every profile that comes back changed, and
every death of the machine, has made the pass dirty, a dispatch completes the session or enters
endurance only if every enabled stage has passed for every core and half since validation last
entered stage 1, with one profile and no death of the machine. -/
theorem declared_earned {w : PassWatch}
    (hreach : (passSystem config ccd).ReachableBy
      (fun w event => KeepsPass config w.validator event) w)
    {env : Dispatch} {next : Validator}
    (hnext : step ccd config w.validator (.fire env) = some next)
    (hdeclares : Declares w.validator next) :
    Earned config ccd w.ledger w.validator.cores := by
  have hholds := holds_of_reachable hreach
  obtain ⟨hstage, hclean⟩ := declares_at_sentinel hholds hnext hdeclares
  exact (hholds.sound (by omega) (by omega) hclean).earned (by omega)

end

/-! ## Two runs -/

/-- Only the stages that are always on, and no endurance. -/
def coreStages : TunerConfig :=
  { validateTransitions := false, validateSpectrum := false, validateMemory := false
    validateSoak := false, endurance := false }

def confirmedCores : List CoreState :=
  [{ coreId := 0, phase := .confirmed, bestOffset := some (-10) },
    { coreId := 1, phase := .confirmed, bestOffset := some (-12) }]

def enters : Event := .returned confirmedCores false (fun _ => true) {}

def passes (core : CoreId) : Event := .finished { core := core, ending := .verdict true }

/-- The rest of a pass, from the solo slot of core 1. -/
def restOfPass : List Event :=
  [passes 1, .fire {}, .fire {}, passes 0, .fire {}, passes 0, .fire {}, passes 1, .fire {},
    .fire {}, .fire {}, .fire {}, .fire {}]

theorem declared_earned_two_cores : ∃ (w : PassWatch) (next : Validator),
    step (fun _ => none) coreStages w.validator (.fire {}) = some next ∧ next.flow = .completed ∧
      Earned coreStages (fun _ => none) w.ledger w.validator.cores := by
  have hran : (((passSystem coreStages fun _ => none).runEvents
      { validator := { cores := confirmedCores } }
      (enters :: passes 0 :: .fire {} :: restOfPass)).bind fun w =>
        (step (fun _ => none) coreStages w.validator (.fire {}))).map (·.flow) =
      some .completed := by decide
  obtain ⟨next, hrun, hflow⟩ := Option.map_eq_some_iff.mp hran
  obtain ⟨w, hruns, hnext⟩ := Option.bind_eq_some_iff.mp hrun
  obtain ⟨entered, hentered, hrest⟩ := Option.bind_eq_some_iff.mp hruns
  have hstart : (passSystem coreStages fun _ => none).ReachableBy
      (fun w event => KeepsPass coreStages w.validator event)
      { validator := { cores := confirmedCores } } := .start ⟨rfl, rfl, rfl⟩
  have hreach := hstart.step (show KeepsPass coreStages _ enters from .inl (by decide)) hentered
  have hkeeps : ∀ event ∈ passes 0 :: .fire {} :: restOfPass, ∀ w : PassWatch,
      KeepsPass coreStages w.validator event := by
    simp [restOfPass, passes, KeepsPass]
  have hreach := hreach.runEvents hkeeps hrest
  exact ⟨w, next, hnext, hflow, declared_earned hreach hnext (.inl hflow)⟩

/-- A death in the middle of the pass, whose hunt charges nobody, leaves the pass clean: the
session completes with it. -/
example :
    (((passSystem coreStages fun _ => none).runEvents
      { validator := { cores := confirmedCores } }
      (enters :: passes 0 :: .fire {} ::
        .resume { cores := confirmedCores, aftermath := .hunt true } :: enters ::
        restOfPass)).bind fun w =>
        (step (fun _ => none) coreStages w.validator (.fire {})).map fun next =>
          (next.flow, w.ledger.died)) = some (.completed, true) := by
  decide

end Validation
end Tuner
end CoreCycler
