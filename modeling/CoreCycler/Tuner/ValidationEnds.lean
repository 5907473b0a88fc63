import CoreCycler.Library.Descent
import CoreCycler.Tuner.CleanPass
import CoreCycler.Tuner.CoreRuns

/-!
# Validation ends

A pass only moves forward, and nothing but a back-off, a failed soak or the sentinel of a dirty
pass sends it back.  A core that is backed off comes closer to its baseline, a failed soak is
counted, and a pass that starts over is clean: so whatever the slots answer, validation comes to
the end of its stages, or stops, or is left for the search, after finitely many steps.
-/

namespace CoreCycler
namespace Tuner
namespace Validation

open Library

variable {config : TunerConfig} {ccd : CoreId → Option Nat} {v : Validator}

/-! ## What runs where -/

/-- A re-test runs for a core that is owed one, and nothing runs at the sentinel. -/
structure Launched (v : Validator) : Prop where
  retest : ∀ core, v.flow = .running (.retest core) →
    v.inRequeue = true ∧ core ∈ v.position.requeue
  stage : ∀ slot, v.flow = .running slot → v.inRequeue = false → v.position.stage ≠ 8

namespace Launched

theorem idle (hidle : ∀ slot, v.flow ≠ .running slot) : Launched v :=
  ⟨fun _ hflow => absurd hflow (hidle _), fun slot hflow => absurd hflow (hidle slot)⟩

theorem launch {slot : Slot}
    (hretest : ∀ core, slot = .retest core → v.inRequeue = true ∧ core ∈ v.position.requeue)
    (hstage : v.inRequeue = false → v.position.stage ≠ 8) (env : Dispatch) (cores : List CoreId) :
    Launched (v.launch env slot cores) := by
  unfold Validator.launch
  split
  · refine ⟨fun core hflow => ?_, fun other hflow => hstage⟩
    exact hretest core (by injection hflow)
  · exact idle fun slot hflow => by cases hflow

theorem runValidationNext (config : TunerConfig) (v : Validator) (env : Dispatch) :
    Launched (v.runValidationNext config env) := by
  have hlaunch : ∀ slot cores, (∀ core, slot ≠ Slot.retest core) → v.position.stage ≠ 8 →
      Launched (v.launch env slot cores) := fun slot cores hslot hstage =>
    launch (fun core hretest => absurd hretest (hslot core)) (fun _ => hstage) env cores
  have hmoved : ∀ (v : Validator) position, Launched (v.moveTo position) := fun v position =>
    idle fun slot hflow => by cases hflow
  unfold Validator.runValidationNext
  split
  · exact idle fun slot hflow => by cases hflow
  · split
    · unfold Validator.runValidationStage1
      split
      · exact hmoved _ _
      · exact hlaunch _ _ (by simp) (by omega)
    · exact hlaunch _ _ (by simp) (by omega)
    · unfold Validator.runValidationStage3
      split
      · exact hmoved _ _
      · exact hlaunch _ _ (by simp) (by omega)
    · split
      · exact hlaunch _ _ (by simp) (by omega)
      · exact hmoved _ _
    · unfold Validator.runValidationStage5
      split
      · split
        · exact hmoved _ _
        · exact hlaunch _ _ (by simp) (by omega)
      · exact hmoved _ _
    · split
      · exact hlaunch _ _ (by simp) (by omega)
      · exact hmoved _ _
    · split
      · exact hlaunch _ _ (by simp) (by omega)
      · exact hmoved _ _
    · unfold Validator.runEnduranceNext
      simp only
      split
      · unfold Validator.finishEnduranceRound
        cases env.annealCandidate with
        | none => exact idle fun slot hflow => by cases hflow
        | some core => exact idle fun slot hflow => by cases hflow
      · split
        · exact hlaunch _ _ (by simp) (by omega)
        · split
          · exact hlaunch _ _ (by simp) (by omega)
          · exact idle fun slot hflow => by cases hflow
    · unfold Validator.allStagesComplete Validator.finalizeSession
      repeat' split
      all_goals exact idle fun slot hflow => by cases hflow

theorem runValidationRequeue (v : Validator) (env : Dispatch) :
    Launched (v.runValidationRequeue env) := by
  unfold Validator.runValidationRequeue
  split
  · exact idle fun slot hflow => by cases hflow
  · split
    · exact idle fun slot hflow => by cases hflow
    · rename_i core rest hrequeue
      refine launch (fun other hretest => ⟨rfl, ?_⟩) (fun hout => by cases hout) env _
      obtain rfl : core = other := by injection hretest
      rw [hrequeue]
      exact List.mem_cons_self

theorem enterAutoValidation (config : TunerConfig) (v : Validator) (logged : CoreId → Bool)
    (env : Dispatch) : Launched (v.enterAutoValidation ccd config logged env) := by
  by_cases hrow : v.row.stage = 0
  · rw [enterAutoValidation_fresh hrow]
    exact runValidationNext config _ env
  · have hpos : 1 ≤ v.row.stage := by omega
    obtain ⟨stage, requeue, -, hentered⟩ := enterAutoValidation_restored config ccd hpos logged env
    rw [hentered]
    split
    · exact runValidationRequeue _ env
    · exact runValidationNext config _ env

theorem completeSession (config : TunerConfig) (v : Validator) (logged : CoreId → Bool)
    (env : Dispatch) : Launched (v.completeSession ccd config logged env) := by
  unfold Validator.completeSession
  split
  · exact enterAutoValidation config v logged env
  · unfold Validator.finalizeSession
    repeat' split
    all_goals exact idle fun slot hflow => by cases hflow

theorem continueSession (config : TunerConfig) (v : Validator) (resumption : Resumption) :
    Launched (v.continueSession ccd config resumption) := by
  unfold Validator.continueSession
  split
  · exact enterAutoValidation config v _ _
  · exact idle fun slot hflow => by cases hflow

theorem invalidatePass (hlaunched : Launched v) : Launched v.invalidatePass := by
  unfold Validator.invalidatePass
  split
  · exact hlaunched
  · exact ⟨hlaunched.retest, hlaunched.stage⟩

theorem resume (config : TunerConfig) (v : Validator) (resumption : Resumption) :
    Launched (v.resume ccd config resumption) := by
  unfold Validator.resume
  simp only
  split
  · exact continueSession config _ _
  · exact idle fun slot hflow => by cases hflow
  · exact continueSession config _ _
  · split
    · exact idle fun slot hflow => by cases hflow
    · split
      · exact (continueSession config _ _).invalidatePass
      · exact continueSession config _ _
  · exact idle fun slot hflow => by cases hflow

end Launched

/-- A result starts no worker: what follows it is queued. -/
theorem onTestFinished_idle (config : TunerConfig) (v : Validator) (ran : Slot) (result : Result)
    (slot : Slot) : (v.onTestFinished config ran result).flow ≠ .running slot := by
  have hretest : ∀ (v : Validator) core passed,
      (v.finishRetest config core passed).flow ≠ .running slot := fun v core passed => by
    unfold Validator.finishRetest
    split
    · intro hflow
      cases hflow
    · simp only
      split
      · intro hflow
        cases hflow
      · intro hflow
        cases hflow
  have hfail : ∀ (v : Validator) core, (v.failSlot config core).flow ≠ .running slot :=
    fun v core => by
      unfold Validator.failSlot
      simp only
      repeat' split
      all_goals
        intro hflow
        cases hflow
  have hleave : ∀ (v : Validator) evidence,
      (v.leaveForEvidence config evidence).flow ≠ .running slot := fun v evidence => by
    unfold Validator.leaveForEvidence
    simp only
    split
    · intro hflow
      cases hflow
    · intro hflow
      cases hflow
  have hqueued : ∀ v : Validator, v.retry.flow ≠ .running slot := fun v => by
    unfold Validator.retry
    simp only
    split
    · intro hflow
      cases hflow
    · intro hflow
      cases hflow
  unfold Validator.onTestFinished
  split
  · intro hflow
    cases hflow
  simp only
  split
  · intro hflow
    cases hflow
  · split
    · exact hleave _ _
    · unfold Validator.handleThermalAbort
      simp only
      split
      · intro hflow
        cases hflow
      · exact hqueued _
  · split
    · exact hleave _ _
    · unfold Validator.handleApparatusFault
      simp only
      split
      · intro hflow
        cases hflow
      · exact hqueued _
  · split
    · split
      · unfold Validator.leaveSoak
        simp only
        split
        · intro hflow
          cases hflow
        · intro hflow
          cases hflow
      · unfold Validator.finishSoak
        split
        · intro hflow
          cases hflow
        · simp only
          split
          · intro hflow
            cases hflow
          · intro hflow
            cases hflow
    · split
      · exact hleave _ _
      · unfold Validator.onValidationTestFinished
        split
        · exact hretest _ _ _
        · split
          · intro hflow
            cases hflow
          · exact hfail _ _

theorem Launched.step (hlaunched : Launched v) {event : Event} {next : Validator}
    (hnext : step ccd config v event = some next) : Launched next := by
  cases event with
  | fire env =>
      simp only [Validation.step] at hnext
      split at hnext
      · obtain rfl := Option.some.inj hnext
        exact .runValidationNext config v env
      · obtain rfl := Option.some.inj hnext
        exact .runValidationRequeue v env
      · cases hnext
  | finished result =>
      simp only [Validation.step] at hnext
      split at hnext
      · rw [Option.ite_none_left_eq_some] at hnext
        obtain rfl := Option.some.inj hnext.2
        exact .idle (onTestFinished_idle config v _ result)
      · cases hnext
  | pause =>
      simp only [Validation.step] at hnext
      split at hnext
      · cases hnext
      · obtain rfl := Option.some.inj hnext
        exact ⟨hlaunched.retest, hlaunched.stage⟩
  | abort =>
      simp only [Validation.step] at hnext
      split at hnext
      · cases hnext
      · obtain rfl := Option.some.inj hnext
        exact .idle fun slot hflow => by cases hflow
  | returned cores dirtied logged env =>
      simp only [Validation.step] at hnext
      split at hnext
      · obtain rfl := Option.some.inj hnext
        exact .completeSession config _ logged env
      · cases hnext
  | resume resumption =>
      simp only [Validation.step] at hnext
      split at hnext
      · cases hnext
      · obtain rfl := Option.some.inj hnext
        exact .resume config v resumption

/-- Validation stands where it may, whatever its pass has come to. -/
def Placed (config : TunerConfig) (ccd : CoreId → Option Nat) (v : Validator) : Prop :=
  ∃ ledger, Holds config ccd ledger v

namespace Placed

theorem step (hplaced : Placed config ccd v) {event : Event} {next : Validator}
    (hnext : step ccd config v event = some next) : Placed config ccd next := by
  obtain ⟨ledger, hholds⟩ := hplaced
  cases event with
  | fire env => exact ⟨_, hholds.step (.fire env) trivial hnext⟩
  | finished result => exact ⟨_, hholds.step (.finished result) trivial hnext⟩
  | pause => exact ⟨_, hholds.step .pause trivial hnext⟩
  | abort => exact ⟨_, hholds.step .abort trivial hnext⟩
  | returned cores dirtied logged env =>
      simp only [Validation.step] at hnext
      split at hnext
      · rename_i hback
        obtain rfl := Option.some.inj hnext
        obtain ⟨covering, htool, hcovers⟩ := Holds.exists_covering config ccd cores
        have hrange : ({ v with cores := cores }.noteDirty dirtied).row.stage ≤ 9 := by
          rw [Validator.noteDirty_row_stage]
          exact hholds.range.1
        refine ⟨covering.enteredFrom _ _, Holds.completeSession ?_ hrange (fun _ _ _ _ => ?_)
          logged env fun _ _ => htool⟩
        · rw [Validator.noteDirty_position_stage]
          exact hholds.away hback.1
        · rw [Validator.noteDirty_cores]
          exact hcovers _
      · cases hnext
  | resume resumption =>
      simp only [Validation.step] at hnext
      split at hnext
      · cases hnext
      · obtain rfl := Option.some.inj hnext
        obtain ⟨covering, htool, hcovers⟩ := Holds.exists_covering config ccd resumption.cores
        exact ⟨covering.enteredFrom v _, Holds.resume hholds.range.1 resumption
          (fun _ _ _ _ _ => hcovers _) fun _ _ => htool⟩

end Placed

/-! ## What is left of a pass -/

/-- How far a core can be backed off. -/
def roomOf (cs : CoreState) : ℕ :=
  match cs.bestOffset with
  | none => 0
  | some best => (best - cs.baselineOffset).natAbs

def room (cores : List CoreState) : ℕ := (cores.map roomOf).sum

/-- How many slots a stage has. -/
def slotsOf (v : Validator) : ℕ :=
  if v.position.stage = 1 ∨ v.position.stage = 5 then v.order.length
  else if v.position.stage = 3 then v.halves.length
  else 0

/-- The re-tests owed, and the way back from them. -/
def retestsLeft (v : Validator) : ℕ :=
  2 * v.position.requeue.length +
    match v.flow with
    | .requeue | .running (.retest _) => 1
    | _ => if v.inRequeue then 2 else 0

/-- What verdicts use up. -/
def verdictsLeft (config : TunerConfig) (v : Validator) : ℕ ×ₗ ℕ ×ₗ ℕ ×ₗ ℕ ×ₗ ℕ ×ₗ ℕ :=
  toLex (room v.cores,
    toLex ((config.maxUnattributedCrashHunts - v.unattributed).toNat,
    toLex (if v.position.dirty then 1 else 0,
    toLex (9 - v.position.stage,
    toLex (slotsOf v - v.position.index, retestsLeft v)))))

/-- What retries use up, and whether a slot is still to be started. -/
def retriesLeft (config : TunerConfig) (v : Validator) : ℕ ×ₗ ℕ ×ₗ ℕ :=
  toLex ((config.maxThermalRetries - v.thermalAborts).toNat,
    toLex ((config.maxApparatusRetries - v.apparatusFaults).toNat,
      match v.flow with
      | .running _ => 0
      | _ => 1))

def stepsLeft (config : TunerConfig) (v : Validator) :
    (ℕ ×ₗ ℕ ×ₗ ℕ ×ₗ ℕ ×ₗ ℕ ×ₗ ℕ) ×ₗ (ℕ ×ₗ ℕ ×ₗ ℕ) :=
  toLex (verdictsLeft config v, retriesLeft config v)

theorem roomOf_backoffCore (hvalid : config.Valid) {cs moved : CoreState}
    (hmoved : backoffCore config cs = some moved) : roomOf moved < roomOf cs := by
  unfold backoffCore at hmoved
  split at hmoved
  · cases hmoved
  · rename_i best hbest
    split at hmoved
    · cases hmoved
    · rename_i habove
      obtain rfl := Option.some.inj hmoved
      have hdir := hvalid.direction
      have hstep := hvalid.fineStep_pos
      have hnext : config.depth (retreatTo config cs (best - config.direction * config.fineStep)) = _ :=
        depth_retreatTo hdir _
      rw [TunerConfig.depth_sub hdir] at hnext
      have hapart : config.depth best ≠ config.depth cs.baselineOffset :=
        mt (TunerConfig.depth_inj hdir).mp habove
      have hbefore := Directed.natAbs_sub_eq hdir best cs.baselineOffset
      have hafter := Directed.natAbs_sub_eq hdir
        (retreatTo config cs (best - config.direction * config.fineStep)) cs.baselineOffset
      simp only [roomOf, hbest]
      simp only [TunerConfig.depth] at hnext hapart
      omega

theorem room_backoffCoreIn (hvalid : config.Valid) {cores backed : List CoreState} {core : CoreId}
    (hbacked : Validator.backoffCoreIn config cores core = some backed) :
    room backed < room cores := by
  have hmoves : ∀ cs, roomOf ((backoffCore config cs).getD cs) ≤ roomOf cs := fun cs => by
    cases hmoved : backoffCore config cs with
    | none => exact Nat.le_refl _
    | some moved => exact (roomOf_backoffCore hvalid hmoved).le
  unfold Validator.backoffCoreIn at hbacked
  split at hbacked
  · rename_i hany
    obtain rfl := Option.some.inj hbacked
    simp only [List.any_eq_true, Bool.and_eq_true, decide_eq_true_eq] at hany
    obtain ⟨cs, hcs, hcore, hsome⟩ := hany
    obtain ⟨moved, hmoved⟩ := Option.isSome_iff_exists.mp hsome
    unfold room
    rw [List.map_map]
    refine List.sum_lt_sum _ _ (fun held _ => ?_) ⟨cs, hcs, ?_⟩
    · rw [Function.comp_apply]
      split
      · exact hmoves held
      · exact Nat.le_refl _
    · rw [Function.comp_apply, if_pos hcore, hmoved]
      exact roomOf_backoffCore hvalid hmoved
  · cases hbacked

theorem room_map {cores : List CoreState} {change : CoreState → CoreState}
    (hkeeps : ∀ cs, roomOf (change cs) = roomOf cs) : room (cores.map change) = room cores := by
  unfold room
  rw [List.map_map]
  exact congrArg List.sum (List.map_congr_left fun cs _ => hkeeps cs)

section

variable {next : Validator}

theorem verdictsLeft_of_room (hroom : room next.cores < room v.cores) :
    verdictsLeft config next < verdictsLeft config v :=
  Descent.lex_of_head hroom

/-- A failed soak is counted. -/
theorem verdictsLeft_of_soak (hroom : room next.cores ≤ room v.cores)
    (hcounted : next.unattributed = v.unattributed + 1)
    (hfew : (next.unattributed : Int) < config.maxUnattributedCrashHunts) :
    verdictsLeft config next < verdictsLeft config v :=
  Descent.lex_of_tail hroom (Descent.lex_of_head (by omega))

/-- The pass that starts over is clean. -/
theorem verdictsLeft_of_clean (hroom : room next.cores ≤ room v.cores)
    (hcounted : next.unattributed = v.unattributed) (hdirty : v.position.dirty = true)
    (hclean : next.position.dirty = false) :
    verdictsLeft config next < verdictsLeft config v :=
  Descent.lex_of_tail hroom (Descent.lex_of_tail (by rw [hcounted])
    (Descent.lex_of_head (by simp [hdirty, hclean])))

/-- What a step leaves alone when it only moves the cursor. -/
structure OnlyMoves (v next : Validator) : Prop where
  room : room next.cores = room v.cores
  counted : next.unattributed = v.unattributed
  dirty : next.position.dirty = v.position.dirty

theorem OnlyMoves.of_stage (hmoves : OnlyMoves v next)
    (hstage : v.position.stage < next.position.stage) (hle : v.position.stage < 9) :
    verdictsLeft config next < verdictsLeft config v :=
  Descent.lex_of_tail hmoves.room.le (Descent.lex_of_tail (by rw [hmoves.counted])
    (Descent.lex_of_tail (by rw [hmoves.dirty]) (Descent.lex_of_head (by omega))))

theorem OnlyMoves.of_slots (hmoves : OnlyMoves v next)
    (hstage : next.position.stage = v.position.stage)
    (hslots : slotsOf next - next.position.index < slotsOf v - v.position.index) :
    verdictsLeft config next < verdictsLeft config v :=
  Descent.lex_of_tail hmoves.room.le (Descent.lex_of_tail (by rw [hmoves.counted])
    (Descent.lex_of_tail (by rw [hmoves.dirty]) (Descent.lex_of_tail (by rw [hstage])
      (Descent.lex_of_head hslots))))

theorem OnlyMoves.of_retests (hmoves : OnlyMoves v next)
    (hstage : next.position.stage = v.position.stage)
    (hslots : slotsOf next - next.position.index = slotsOf v - v.position.index)
    (hretests : retestsLeft next < retestsLeft v) :
    verdictsLeft config next < verdictsLeft config v :=
  Descent.lex_of_tail hmoves.room.le (Descent.lex_of_tail (by rw [hmoves.counted])
    (Descent.lex_of_tail (by rw [hmoves.dirty]) (Descent.lex_of_tail (by rw [hstage])
      (Descent.lex_of_tail hslots.le hretests))))

theorem OnlyMoves.of_same (hmoves : OnlyMoves v next)
    (hstage : next.position.stage = v.position.stage)
    (hslots : slotsOf next - next.position.index = slotsOf v - v.position.index)
    (hretests : retestsLeft next ≤ retestsLeft v) :
    verdictsLeft config next ≤ verdictsLeft config v := by
  rcases hretests.lt_or_eq with hlt | heq
  · exact (hmoves.of_retests hstage hslots hlt).le
  · unfold verdictsLeft
    rw [hmoves.room, hmoves.counted, hmoves.dirty, hstage, hslots, heq]

end

/-! ## Every step uses some of it up -/

/-- A validation pass has something to do; endurance is past its stages. -/
def InPass (v : Validator) : Prop := v.flow.validating = true ∧ v.position.stage ≠ 9

theorem stepsLeft_of_verdict {next : Validator}
    (hlt : verdictsLeft config next < verdictsLeft config v) :
    stepsLeft config next < stepsLeft config v :=
  Descent.lex_of_head hlt

theorem not_inPass_halt (v : Validator) : ¬ InPass v.halt := by
  rintro ⟨hvalidating, -⟩
  cases hvalidating

section

variable {ledger : Ledger}

/-- A slot that is started has been queued. -/
theorem launch_lt {slot : Slot} {env : Dispatch} {cores : List CoreId}
    (hflow : v.flow = .next ∨ v.flow = .requeue)
    (hretests : retestsLeft { v with flow := .running slot } ≤ retestsLeft v)
    (hin : InPass (v.launch env slot cores)) :
    stepsLeft config (v.launch env slot cores) < stepsLeft config v := by
  unfold Validator.launch at hin ⊢
  split
  · have hroom : room (v.markCoresUnderStress cores).cores = room v.cores :=
      room_map fun cs => by split <;> rfl
    refine Descent.lex_of_tail (OnlyMoves.of_same ⟨hroom, rfl, rfl⟩ rfl rfl hretests) ?_
    refine Descent.lex_of_tail (Nat.le_refl _) (Descent.lex_of_tail (Nat.le_refl _) ?_)
    rcases hflow with hflow | hflow <;> simp [hflow]
  · rename_i hrefused
    rw [if_neg hrefused] at hin
    exact absurd hin (not_inPass_halt v)

theorem retestsLeft_next (hflow : v.flow = .next) {slot : Slot}
    (hslot : ∀ core, slot ≠ .retest core) :
    retestsLeft { v with flow := .running slot } ≤ retestsLeft v := by
  unfold retestsLeft
  simp only [hflow]
  cases slot with
  | retest core => exact absurd rfl (hslot core)
  | _ => exact Nat.le_refl _

/-- A dispatch starts the slot of the cursor, or goes on to the next stage; the sentinel starts a
dirty pass over. -/
theorem runValidationNext_lt (hholds : Holds config ccd ledger v) (hflow : v.flow = .next)
    (hstage : v.position.stage ≠ 9) (env : Dispatch)
    (hin : InPass (v.runValidationNext config env)) :
    stepsLeft config (v.runValidationNext config env) < stepsLeft config v := by
  have hvalidating : v.flow.validating = true := by rw [hflow]; rfl
  obtain ⟨hsaved, hpos⟩ := hholds.saved hvalidating
  have hrange := hholds.range.2
  rw [hsaved] at hpos
  -- A stage launches its slot or moves on to a later stage; either takes a step.
  have hlaunch : ∀ slot cores, (∀ core, slot ≠ Slot.retest core) →
      InPass (v.launch env slot cores) →
      stepsLeft config (v.launch env slot cores) < stepsLeft config v :=
    fun slot cores hslot hin => launch_lt (.inl hflow) (retestsLeft_next hflow hslot) hin
  have hmoved : ∀ position : Position, position.dirty = v.position.dirty →
      v.position.stage < position.stage →
      stepsLeft config (v.moveTo position) < stepsLeft config v :=
    fun position hdirty hlater =>
      stepsLeft_of_verdict (OnlyMoves.of_stage ⟨rfl, rfl, hdirty⟩ hlater (by omega))
  unfold Validator.runValidationNext at hin ⊢
  split
  · rename_i hpaused
    rw [if_pos hpaused] at hin
    exact absurd hin (not_inPass_halt v)
  rename_i hpaused
  rw [if_neg hpaused] at hin
  split
  · rename_i hat
    simp only [hat] at hin
    unfold Validator.runValidationStage1 at hin ⊢
    split
    · exact hmoved _ rfl (by simp [hat])
    · rename_i core hcore
      simp only [hcore] at hin
      exact hlaunch _ _ (by simp) hin
  · rename_i hat
    simp only [hat] at hin
    exact hlaunch _ _ (by simp) hin
  · rename_i hat
    simp only [hat] at hin
    unfold Validator.runValidationStage3 at hin ⊢
    split
    · exact hmoved _ rfl (by simp [hat])
    · rename_i half hhalf
      simp only [hhalf] at hin
      exact hlaunch _ _ (by simp) hin
  · rename_i hat
    simp only [hat] at hin
    split
    · rename_i henabled
      rw [if_pos henabled] at hin
      exact hlaunch _ _ (by simp) hin
    · exact hmoved _ rfl (by simp [hat])
  · rename_i hat
    simp only [hat] at hin
    split
    · rename_i henabled
      rw [if_pos henabled] at hin
      unfold Validator.runValidationStage5 at hin ⊢
      split
      · exact hmoved _ rfl (by simp [hat])
      · rename_i core hcore
        simp only [hcore] at hin
        exact hlaunch _ _ (by simp) hin
    · exact hmoved _ rfl (by simp [hat])
  · rename_i hat
    simp only [hat] at hin
    split
    · rename_i henabled
      rw [if_pos henabled] at hin
      exact hlaunch _ _ (by simp) hin
    · exact hmoved _ rfl (by simp [hat])
  · rename_i hat
    simp only [hat] at hin
    split
    · rename_i henabled
      rw [if_pos henabled] at hin
      exact hlaunch _ _ (by simp) hin
    · exact hmoved _ rfl (by simp [hat])
  · contradiction
  -- Behind the last stage, a dirty pass starts over as a clean one and a clean pass is finished.
  · have hsentinel : v.position.stage = 8 := by
      apply Holds.stage_sentinel <;> assumption
    simp only [hsentinel] at hin
    unfold Validator.allStagesComplete at hin ⊢
    by_cases hdirty : v.position.dirty = true
    · rw [if_pos hdirty]
      exact stepsLeft_of_verdict (verdictsLeft_of_clean (Nat.le_refl _) rfl hdirty rfl)
    · rw [if_neg hdirty] at hin
      unfold Validator.finalizeSession at hin
      rw [if_neg hdirty] at hin
      exfalso
      split at hin
      · exact hin.2 rfl
      · split at hin
        · cases hin.1
        · exact not_inPass_halt _ hin

theorem runValidationRequeue_lt (hflow : v.flow = .requeue) (env : Dispatch)
    (hin : InPass (v.runValidationRequeue env)) :
    stepsLeft config (v.runValidationRequeue env) < stepsLeft config v := by
  unfold Validator.runValidationRequeue at hin ⊢
  split
  · rename_i hpaused
    rw [if_pos hpaused] at hin
    exact absurd hin (not_inPass_halt v)
  rename_i hpaused
  rw [if_neg hpaused] at hin
  split
  · refine stepsLeft_of_verdict (OnlyMoves.of_retests ⟨rfl, rfl, rfl⟩ rfl rfl ?_)
    simp [retestsLeft, Validator.moveTo, hflow]
  · rename_i core rest hrequeue
    simp only [hrequeue] at hin
    have hsame : stepsLeft config { v with inRequeue := true } = stepsLeft config v := by
      unfold stepsLeft verdictsLeft retriesLeft retestsLeft slotsOf
      simp [hflow]
    rw [← hsame]
    exact launch_lt (.inr hflow) (by simp [retestsLeft, hflow]) hin

theorem retestsLeft_running {slot : Slot} (hflow : v.flow = .running slot)
    (hin : v.inRequeue = true) : 2 * v.position.requeue.length + 1 ≤ retestsLeft v := by
  unfold retestsLeft
  rw [hflow]
  cases slot <;> simp [hin]

/-- A step without a verdict is queued again, and counted. -/
theorem retry_lt {next : Validator} {slot : Slot} (hflow : v.flow = .running slot) (hnext : next.flow = if v.inRequeue then .requeue else .next)
    (hin : next.inRequeue = v.inRequeue) (hposition : next.position = v.position)
    (hcores : next.cores = v.cores) (hcounted : next.unattributed = v.unattributed)
    (horder : next.order = v.order ∧ next.halves = v.halves)
    (hretries : retriesLeft config next < retriesLeft config v) :
    stepsLeft config next < stepsLeft config v := by
  have hslots : slotsOf next - next.position.index = slotsOf v - v.position.index := by
    unfold slotsOf
    rw [hposition, horder.1, horder.2]
  refine Descent.lex_of_tail (OnlyMoves.of_same ⟨by rw [hcores], hcounted, by rw [hposition]⟩
    (by rw [hposition]) hslots ?_) hretries
  by_cases hrequeue : v.inRequeue = true
  · have hrunning := retestsLeft_running hflow hrequeue
    refine le_trans ?_ hrunning
    simp [retestsLeft, hnext, hrequeue, hposition]
  · have hout : v.inRequeue = false := by simpa using hrequeue
    simp [retestsLeft, hnext, hin, hout, hposition]

theorem handleThermalAbort_lt {slot : Slot} (hflow : v.flow = .running slot)
    (hin : InPass (v.handleThermalAbort config)) :
    stepsLeft config (v.handleThermalAbort config) < stepsLeft config v := by
  unfold Validator.handleThermalAbort at hin ⊢
  simp only at hin ⊢
  split
  · rename_i hmany
    rw [if_pos hmany] at hin
    cases hin.1
  · rename_i hfew
    refine retry_lt hflow rfl rfl rfl rfl rfl ⟨rfl, rfl⟩ (Descent.lex_of_head ?_)
    simp only [Validator.retry]
    omega

theorem handleApparatusFault_lt {slot : Slot} (hflow : v.flow = .running slot)
    (hin : InPass (v.handleApparatusFault config)) :
    stepsLeft config (v.handleApparatusFault config) < stepsLeft config v := by
  unfold Validator.handleApparatusFault at hin ⊢
  simp only at hin ⊢
  split
  · rename_i hmany
    rw [if_pos hmany] at hin
    cases hin.1
  · rename_i hfew
    refine retry_lt hflow rfl rfl rfl rfl rfl ⟨rfl, rfl⟩
      (Descent.lex_of_tail (Nat.le_refl _) (Descent.lex_of_head ?_))
    simp only [Validator.retry]
    omega

/-- A re-test that passes shortens the queue; one that fails backs its core off. -/
theorem finishRetest_lt (hvalid : config.Valid) {slot : Slot} (hlaunched : Launched v)
    (hflow : v.flow = .running slot) (hrequeue : v.inRequeue = true) {core : CoreId}
    (hreported : ∀ tested, slot = .retest tested → core = tested) {passed : Bool}
    (hin : InPass (v.finishRetest config core passed)) :
    verdictsLeft config (v.finishRetest config core passed) < verdictsLeft config v := by
  unfold Validator.finishRetest at hin ⊢
  split
  · refine OnlyMoves.of_retests ⟨rfl, rfl, rfl⟩ rfl rfl ?_
    cases slot with
    | retest tested =>
        obtain ⟨-, hmember⟩ := hlaunched.retest tested hflow
        have hlength := List.length_erase_of_mem (hreported tested rfl ▸ hmember)
        have hpos := List.length_pos_of_mem hmember
        simp only [retestsLeft, Validator.requeueAt, hflow, hlength]
        omega
    | _ =>
        have hlength := v.position.requeue.length_erase_le (a := core)
        simp only [retestsLeft, Validator.requeueAt, hflow, hrequeue, if_true]
        omega
  · rename_i hfailed
    rw [if_neg hfailed] at hin
    simp only at hin ⊢
    split
    · rename_i hnone
      simp only [hnone] at hin
      exact absurd hin (not_inPass_halt _)
    · rename_i cores hbacked
      exact verdictsLeft_of_room (room_backoffCoreIn hvalid hbacked)

theorem failSlot_lt (hvalid : config.Valid) {core : CoreId}
    (hin : InPass (v.failSlot config core)) :
    verdictsLeft config (v.failSlot config core) < verdictsLeft config v := by
  unfold Validator.failSlot at hin ⊢
  split
  · rename_i hfour
    rw [if_pos hfour] at hin
    cases hin.1
  · rename_i hfour
    rw [if_neg hfour] at hin
    split
    · rename_i hnamed
      rw [if_pos hnamed] at hin
      split
      · rename_i hnone
        simp only [hnone] at hin
        exact absurd hin (not_inPass_halt _)
      · rename_i cores hbacked
        simp only
        have hroom := room_backoffCoreIn hvalid hbacked
        split
        · exact verdictsLeft_of_room hroom
        · exact verdictsLeft_of_room hroom
    · rename_i hnamed
      rw [if_neg hnamed] at hin
      exact absurd hin (not_inPass_halt _)

/-- A soak that passes ends the pass; one that fails is counted. -/
theorem finishSoak_lt (hholds : Holds config ccd ledger v) (hflow : v.flow = .running .soak)
    {passed : Bool} (hin : InPass (v.finishSoak config passed)) :
    verdictsLeft config (v.finishSoak config passed) < verdictsLeft config v := by
  unfold Validator.finishSoak at hin ⊢
  split
  · have hseven : v.position.stage = 7 := (hholds.slot .soak hflow (.inr rfl) (.inr rfl)).stage_soak
    exact OnlyMoves.of_stage ⟨rfl, rfl, rfl⟩ (by simp [Validator.moveTo, hseven]) (by omega)
  · rename_i hfailed
    rw [if_neg hfailed] at hin
    simp only at hin ⊢
    split
    · rename_i hmany
      rw [if_pos hmany] at hin
      exact absurd hin (not_inPass_halt _)
    · rename_i hfew
      exact verdictsLeft_of_soak (Nat.le_refl _) rfl (not_le.mp hfew)

/-- A slot that passes moves the cursor on. -/
theorem passSlot_lt (hholds : Holds config ccd ledger v) (hlaunched : Launched v) {slot : Slot}
    (hflow : v.flow = .running slot) (hout : v.inRequeue = false) (hsoak : slot ≠ .soak)
    (hnine : v.position.stage ≠ 9) : verdictsLeft config v.passSlot < verdictsLeft config v := by
  have hvalidating : v.flow.validating = true := by rw [hflow]; rfl
  obtain ⟨hsaved, hpos⟩ := hholds.saved hvalidating
  have height := hlaunched.stage slot hflow hout
  have hrange := hholds.range.2
  rw [hsaved] at hpos
  have hplace := hholds.slot slot hflow (.inl hout) (.inl (by omega))
  have hhalves := (hholds.ordered hvalidating).2
  have hwithin : v.position.stage = 1 ∨ v.position.stage = 3 ∨ v.position.stage = 5 →
      v.position.index < slotsOf v := fun hstage => by
    unfold slotsOf
    generalize v.position.index = index at hplace
    rcases hstage with hat | hat | hat
    all_goals rw [hat] at hplace ⊢
    · cases hplace with
      | solo hcore => exact (List.getElem?_eq_some_iff.mp hcore).1
    · cases hplace with
      | half hlt => simpa [hhalves] using hlt
    · cases hplace with
      | spectrum _ hcore => exact (List.getElem?_eq_some_iff.mp hcore).1
  have hposition : v.passSlot.position = Validator.afterPass v.position := rfl
  have hmoves : OnlyMoves v v.passSlot := ⟨rfl, rfl, by rw [hposition, afterPass_dirty]⟩
  have hsame : v.position.stage = 1 ∨ v.position.stage = 3 ∨ v.position.stage = 5 →
      v.passSlot.position.stage = v.position.stage ∧
        v.passSlot.position.index = v.position.index + 1 := fun hstage => by
    rcases hstage with hat | hat | hat
    all_goals simp [hposition, Validator.afterPass, Position.index, hat]
  have hcases : v.position.stage = 1 ∨ v.position.stage = 2 ∨ v.position.stage = 3 ∨
      v.position.stage = 4 ∨ v.position.stage = 5 ∨ v.position.stage = 6 ∨
      v.position.stage = 7 := by omega
  by_cases hslots : v.position.stage = 1 ∨ v.position.stage = 3 ∨ v.position.stage = 5
  · obtain ⟨hstage, hindex⟩ := hsame hslots
    have hlt := hwithin hslots
    refine hmoves.of_slots hstage ?_
    have hslots' : slotsOf v.passSlot = slotsOf v := by
      unfold slotsOf
      rw [hstage]
      rfl
    omega
  · by_cases hseven : v.position.stage = 7
    · generalize v.position.index = index at hplace
      rw [hseven] at hplace
      cases hplace
      exact absurd rfl hsoak
    · refine hmoves.of_stage ?_ (by omega)
      have hstages : v.position.stage = 2 ∨ v.position.stage = 4 ∨ v.position.stage = 6 := by omega
      rcases hstages with hat | hat | hat
      all_goals simp [hposition, Validator.afterPass, hat]

theorem verdictsLeft_unmark (config : TunerConfig) (v : Validator) (core : CoreId) :
    verdictsLeft config (v.unmark core) = verdictsLeft config v := by
  have hroom : room (v.unmark core).cores = room v.cores := by
    refine (room_map fun cs => ?_).trans (room_map fun cs => ?_)
    · split <;> rfl
    · split <;> rfl
  unfold verdictsLeft
  rw [hroom]
  rfl

theorem not_inPass_leave (config : TunerConfig) (v : Validator) (evidence : List Evidence) :
    ¬ InPass (v.leaveForEvidence config evidence) := by
  unfold Validator.leaveForEvidence
  simp only
  split
  · exact not_inPass_halt _
  · rintro ⟨hvalidating, -⟩
    cases hvalidating

/-- A soak that leaves its mark on the search ends the pass. -/
theorem not_inPass_of_staysSoaking (config : TunerConfig) (v : Validator) {slot : Slot}
    {result : Result} (hstays : slot.staysSoaking result = true) :
    ¬ InPass (v.onTestFinished config slot result) := by
  obtain ⟨-, hending, hevidence⟩ := of_decide_eq_true hstays
  unfold Validator.onTestFinished
  split
  · exact not_inPass_halt v
  · simp only [hending]
    exact not_inPass_leave config _ _

/-- A result either ends the pass or uses something up. -/
theorem onTestFinished_lt (hvalid : config.Valid) (hholds : Holds config ccd ledger v)
    (hlaunched : Launched v) {slot : Slot} (hflow : v.flow = .running slot)
    (hnine : v.position.stage ≠ 9) {result : Result}
    (hreported : ∀ core, slot = .retest core → result.core = core)
    (hin : InPass (v.onTestFinished config slot result)) :
    stepsLeft config (v.onTestFinished config slot result) < stepsLeft config v := by
  unfold Validator.onTestFinished at hin ⊢
  split
  · rename_i hunknown
    rw [if_pos hunknown] at hin
    exact absurd hin (not_inPass_halt v)
  rename_i hknown
  rw [if_neg hknown] at hin
  have hcleared := hholds.unmark result.core
  have hstarted : Launched (v.unmark result.core) := ⟨hlaunched.retest, hlaunched.stage⟩
  have hrunning : (v.unmark result.core).flow = .running slot := hflow
  have hverdicts := verdictsLeft_unmark config v result.core
  -- Clearing the mark of the core takes no step and gives none back.
  have hsteps : stepsLeft config (v.unmark result.core) = stepsLeft config v := by
    unfold stepsLeft
    rw [hverdicts]
    rfl
  cases hending : result.ending with
  | startup =>
      simp only [hending] at hin
      exact absurd hin (not_inPass_halt _)
  | thermal =>
      simp only [hending] at hin ⊢
      split
      · rename_i hnamed
        rw [if_pos hnamed] at hin
        exact absurd hin (not_inPass_leave config _ _)
      · rename_i hnone
        rw [if_neg hnone] at hin
        rw [← hsteps]
        exact handleThermalAbort_lt hrunning hin
  | apparatus =>
      simp only [hending] at hin ⊢
      split
      · rename_i hnamed
        rw [if_pos hnamed] at hin
        exact absurd hin (not_inPass_leave config _ _)
      · rename_i hnone
        rw [if_neg hnone] at hin
        rw [← hsteps]
        exact handleApparatusFault_lt hrunning hin
  | verdict passed =>
      simp only [hending] at hin ⊢
      refine stepsLeft_of_verdict ?_
      rw [← hverdicts]
      -- A verdict resets the count of faults first; the verdicts left do not depend on it.
      generalize hreset : ({ v.unmark result.core with apparatusFaults := 0 } : Validator) = reset
        at hin ⊢
      have hholds' : Holds config ccd ledger reset := by
        subst hreset
        exact ⟨hcleared.saved, hcleared.ordered, hcleared.range, hcleared.away, hcleared.sound,
          hcleared.slot⟩
      have hlaunched' : Launched reset := by
        subst hreset
        exact ⟨hlaunched.retest, hlaunched.stage⟩
      have hflow' : reset.flow = .running slot := by rw [← hreset]; exact hflow
      have hnine' : reset.position.stage ≠ 9 := by rw [← hreset]; exact hnine
      have hverdicts' : verdictsLeft config (v.unmark result.core) = verdictsLeft config reset := by
        rw [← hreset]
        rfl
      rw [hverdicts']
      split
      · rename_i hsoak
        rw [if_pos hsoak] at hin
        subst hsoak
        split
        · rename_i hnamed
          rw [if_pos hnamed] at hin
          unfold Validator.leaveSoak at hin
          simp only at hin
          split at hin
          · exact absurd hin (not_inPass_halt _)
          · cases hin.1
        · rename_i hnone
          rw [if_neg hnone] at hin
          exact finishSoak_lt hholds' hflow' hin
      · rename_i hsoak
        rw [if_neg hsoak] at hin
        split
        · rename_i hnamed
          rw [if_pos hnamed] at hin
          exact absurd hin (not_inPass_leave config _ _)
        · rename_i hnone
          rw [if_neg hnone] at hin
          unfold Validator.onValidationTestFinished at hin ⊢
          split
          · rename_i hrequeue
            rw [if_pos hrequeue] at hin
            exact finishRetest_lt hvalid hlaunched' hflow' hrequeue hreported hin
          · rename_i hout
            rw [if_neg hout] at hin
            split
            · exact passSlot_lt hholds' hlaunched' hflow' (by simpa using hout) hsoak hnine'
            · rename_i hfailed
              rw [if_neg hfailed] at hin
              exact failSlot_lt hvalid hin

end

/-! ## Every run -/

/-- The core a slot runs on, where it is one. -/
def Slot.alone : Slot → Option CoreId
  | .solo core | .spectrum core | .retest core => some core
  | .endurance _ _ core => core
  | _ => none

/-- The worker of a slot of one core reports under that core. -/
def Slot.report (slot : Slot) (result : Result) : Result :=
  { result with core := slot.alone.getD result.core }

/-- What the next dispatch finds, and what the next slot comes to. -/
structure Answer where
  env : Dispatch := {}
  result : Result

/-- Validation takes its next step. -/
def respond (config : TunerConfig) (v : Validator) (answer : Answer) : Validator :=
  match v.flow with
  | .next => v.runValidationNext config answer.env
  | .requeue => v.runValidationRequeue answer.env
  | .running slot => v.onTestFinished config slot (slot.report answer.result)
  | _ => v

/-- While validation goes on and is not left for the search, every answer is an event. -/
theorem step_respond (config : TunerConfig) (ccd : CoreId → Option Nat)
    (hvalidating : v.flow.validating = true) {answer : Answer}
    (hin : InPass (respond config v answer)) :
    ∃ event, step ccd config v event = some (respond config v answer) := by
  unfold respond at hin ⊢
  cases hflow : v.flow with
  | next => exact ⟨.fire answer.env, by simp [Validation.step, hflow]⟩
  | requeue => exact ⟨.fire answer.env, by simp [Validation.step, hflow]⟩
  | running slot =>
      simp only [hflow] at hin
      refine ⟨.finished (slot.report answer.result), ?_⟩
      have hsoak : slot.staysSoaking (slot.report answer.result) = false := by
        by_contra hstays
        exact not_inPass_of_staysSoaking config v (by simpa using hstays) hin
      simp [Validation.step, hflow, hsoak]
  | _ => simp [Flow.validating, hflow] at hvalidating

theorem respond_lt (hvalid : config.Valid) (hplaced : Placed config ccd v)
    (hlaunched : Launched v) (hin : InPass v) {answer : Answer}
    (hnext : InPass (respond config v answer)) :
    stepsLeft config (respond config v answer) < stepsLeft config v := by
  obtain ⟨ledger, hholds⟩ := hplaced
  unfold respond at hnext ⊢
  cases hflow : v.flow with
  | next =>
      simp only [hflow] at hnext
      exact runValidationNext_lt hholds hflow hin.2 answer.env hnext
  | requeue =>
      simp only [hflow] at hnext
      exact runValidationRequeue_lt hflow answer.env hnext
  | running slot =>
      simp only [hflow] at hnext
      refine onTestFinished_lt hvalid hholds hlaunched hflow hin.2 (fun core hretest => ?_) hnext
      subst hretest
      rfl
  | _ =>
      have hvalidating := hin.1
      simp [Flow.validating, hflow] at hvalidating

/-- What is left of a pass, and nothing once it is over. -/
def passLeft (config : TunerConfig) (v : Validator) :
    WithBot ((ℕ ×ₗ ℕ ×ₗ ℕ ×ₗ ℕ ×ₗ ℕ ×ₗ ℕ) ×ₗ (ℕ ×ₗ ℕ ×ₗ ℕ)) :=
  if v.flow.validating = true ∧ v.position.stage ≠ 9 then (stepsLeft config v : WithBot _) else ⊥

/-- **Validation ends.**  From any state a run reaches, and whatever the dispatches find and the
slots come to, validation is over its stages after finitely many steps: it is done or in
endurance, it has stopped, or the cores are back in the search or in a hunt. -/
theorem validation_ends (hvalid : config.Valid) {w : PassWatch}
    (hreach : (passSystem config ccd).Reachable w) (answers : ℕ → Answer) :
    ∃ count, ¬ InPass (Descent.answered (respond config) w.validator answers count) := by
  have hinvariant : Placed config ccd w.validator ∧ Launched w.validator := by
    have hstart : ∀ w : PassWatch, (passSystem config ccd).Start w →
        Placed config ccd w.validator ∧ Launched w.validator := fun w ⟨hflow, hrow, hposition⟩ => by
      refine ⟨⟨{}, Holds.gone (.inl hflow) (by rw [hposition]) (by simp [hrow]) fun hpos => ?_⟩,
        .idle fun slot hrunning => ?_⟩
      · simp [hrow] at hpos
      · rw [hflow] at hrunning
        cases hrunning
    have hstep : ∀ (w : PassWatch) event next,
        Placed config ccd w.validator ∧ Launched w.validator → StepSystem.anyStep w event →
        (passSystem config ccd).step w event = some next →
        Placed config ccd next.validator ∧ Launched next.validator :=
      fun w event next ⟨hplaced, hlaunched⟩ _ hnext => by
        obtain ⟨moved, hmoved, rfl⟩ := Option.map_eq_some_iff.mp hnext
        exact ⟨hplaced.step hmoved, hlaunched.step hmoved⟩
    exact hreach.invariant hstart hstep
  have hkeep : ∀ (v : Validator) (answer : Answer),
      (InPass v → Placed config ccd v ∧ Launched v) → ¬ ¬ InPass v →
      InPass (respond config v answer) → Placed config ccd (respond config v answer) ∧
        Launched (respond config v answer) := fun v answer hkept hin hnext => by
    obtain ⟨hplaced, hlaunched⟩ := hkept (not_not.mp hin)
    obtain ⟨event, hevent⟩ := step_respond config ccd (not_not.mp hin).1 hnext
    exact ⟨hplaced.step hevent, hlaunched.step hevent⟩
  have hlower : ∀ (v : Validator) (answer : Answer),
      (InPass v → Placed config ccd v ∧ Launched v) → ¬ ¬ InPass v →
      passLeft config (respond config v answer) < passLeft config v :=
    fun v answer hkept hin => by
      obtain ⟨hplaced, hlaunched⟩ := hkept (not_not.mp hin)
      have hleft : passLeft config v = (stepsLeft config v : WithBot _) := if_pos (not_not.mp hin)
      rw [hleft]
      unfold passLeft
      split
      · rename_i hnext
        have hin : InPass v := not_not.mp hin
        exact WithBot.coe_lt_coe.mpr (respond_lt hvalid hplaced hlaunched hin hnext)
      · exact WithBot.bot_lt_coe _
  exact Descent.exists_stop (fun v _ => ¬ InPass v) (passLeft config) hkeep hlower
    (fun _ => hinvariant) answers

/-- Every slot fails: the cores are backed off until there is nothing left to give. -/
theorem validation_ends_two_cores : ∃ w : PassWatch, InPass w.validator ∧ ∃ count,
    ¬ InPass (Descent.answered (respond {}) w.validator
      (fun _ => { result := { core := 0, ending := .verdict false } }) count) := by
  have hentered : ((passSystem {} fun _ => none).runEvents
      { validator := { cores := confirmedCores } } [enters]).map
        (fun w => (w.validator.flow, w.validator.position.stage)) =
      some (.running (.solo 0), 1) := by decide
  obtain ⟨w, hrun, hat⟩ := Option.map_eq_some_iff.mp hentered
  obtain ⟨hflow, hstage⟩ := Prod.mk.inj hat
  have hstart : (passSystem {} fun _ => none).Reachable
      { validator := { cores := confirmedCores } } := .start ⟨rfl, rfl, rfl⟩
  have hreach := hstart.runEvents (fun _ _ _ => trivial) hrun
  refine ⟨w, ⟨by rw [hflow]; rfl, by omega⟩, validation_ends (by decide +kernel) hreach _⟩

end Validation
end Tuner
end CoreCycler
