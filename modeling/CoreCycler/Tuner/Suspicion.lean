import CoreCycler.Library.Ranking
import CoreCycler.Tuner.HuntReporter
import CoreCycler.Tuner.Slots

/-!
# Whom suspicion convicts

Hunts that reproduce nothing credit suspicion to the cores of their vectors, probes that
clear a core halve it, and a charge takes it back to zero.  `accusing` runs these in any
order, next to a search that changes anything else.

Suspicion stays non-negative, and a core that a hunt charges without a reproduction stands
out by the separation factor once the failures are enough.  That it was live is another
matter: the verdict looks at the scores alone, so a core that earlier hunts accused is charged
with a failure it was at stock for, as long as it still stands out (`convicts_iff`).
-/

namespace CoreCycler
namespace Tuner

open Bisect Library Library.Ranking

/-- A core with its suspicion. -/
def CoreState.account (cs : CoreState) : CoreId × ℚ := (cs.coreId, cs.suspicion)

namespace Suspicion

/-! ## The events -/

/-- Halve the suspicion of the cores a probe cleared. -/
def exonerate (state : SessionState) (cores : List CoreId) : SessionState :=
  cores.foldl
    (fun state core => state.mapCores fun cs =>
      if cs.coreId = core ∧ cs.suspicion ≠ 0 then { cs with suspicion := cs.suspicion / 2 }
      else cs)
    state

def accounts (state : SessionState) : List (CoreId × ℚ) :=
  state.coreStates.map CoreState.account

inductive AccusationEvent where
  /-- A hunt ends, with culprits or exhausted. -/
  | resolve (hunt : HuntState) (accepted : CoreId → Bool)
  | exonerate (cores : List CoreId)
  /-- The search changes anything but the suspicion of the cores. -/
  | search (next : SessionState)

/-- The cores have different ids, and no negative suspicion. -/
structure Fair (state : SessionState) : Prop where
  nodup : state.engine.coreIds.Nodup
  nonneg : ∀ cs ∈ state.coreStates, 0 ≤ cs.suspicion

def accusing (config : TunerConfig) : StepSystem SessionState AccusationEvent where
  Start := Fair
  step state
    | .resolve hunt accepted => some (resolveHunt config state hunt accepted)
    | .exonerate cores => some (Suspicion.exonerate state cores)
    | .search next => if accounts next = accounts state then some next else none

/-! ## What the other parts of a resolution leave alone -/

section Frame

variable {config : TunerConfig} {state : SessionState} {cs : CoreState}

theorem account_resolveAnneal (passed : Bool) :
    (resolveAnneal config cs passed).core.account = cs.account := by
  unfold resolveAnneal
  dsimp only
  split_ifs <;> rfl

theorem account_absorbVerdict (passed : Bool) :
    (absorbVerdict config cs passed).account = cs.account := by
  have hbest : (normalizeBest cs).account = cs.account := by
    unfold normalizeBest
    split <;> rfl
  unfold absorbVerdict
  dsimp only
  split
  · exact hbest
  · exact hbest

theorem account_handleContradictoryPass {outcome : Outcome}
    (hcontradiction : handleContradictoryPass config cs = some outcome) :
    outcome.core.account = cs.account := by
  unfold handleContradictoryPass at hcontradiction
  split at hcontradiction
  · exact absurd hcontradiction (by simp)
  · dsimp only at hcontradiction
    split_ifs at hcontradiction <;> obtain rfl := Option.some.inj hcontradiction <;> rfl

theorem account_advanceCoarse (passed : Bool) :
    (advanceCoarse config cs passed).core.account = cs.account := by
  unfold advanceCoarse
  dsimp only
  split
  · split <;> rfl
  · split <;> rfl

theorem account_advanceFailedConfirm :
    (advanceFailedConfirm config cs).account = cs.account := by
  unfold advanceFailedConfirm
  split
  · dsimp only
    split <;> rfl
  · rfl

theorem account_preconfirm (passed : Bool) :
    (if passed then preconfirmPass config cs else preconfirmFail config cs).account =
      cs.account := by
  split
  · unfold preconfirmPass
    dsimp only
    split
    · split <;> rfl
    · rfl
  · unfold preconfirmFail
    dsimp only
    split
    · split <;> rfl
    · rfl

theorem account_backoffConfirm (passed : Bool) :
    (if passed then backoffConfirmPass config cs else backoffConfirmFail config cs).account =
      cs.account := by
  split
  · unfold backoffConfirmPass
    dsimp only
    split
    · split <;> rfl
    · rfl
  · unfold backoffConfirmFail
    dsimp only
    split <;> rfl

theorem account_advancePhase (passed : Bool) :
    (advancePhase config cs passed).core.account = cs.account := by
  unfold advancePhase
  split
  · rfl
  · exact account_advanceCoarse passed
  · show (advanceFine config cs passed).account = cs.account
    unfold advanceFine
    dsimp only
    split_ifs <;> rfl
  · show (advanceSettled cs).account = cs.account
    unfold advanceSettled
    split <;> rfl
  · show (advanceConfirming config cs passed).account = cs.account
    unfold advanceConfirming
    split <;> rfl
  · exact account_advanceFailedConfirm
  · exact account_preconfirm passed
  · exact account_backoffConfirm passed
  · rfl
  · rfl

/-- A verdict on a step moves no suspicion. -/
theorem account_advanceCore (config : TunerConfig) (cs : CoreState) (passed : Bool) :
    (advanceCore config cs passed).core.account = cs.account := by
  unfold advanceCore
  split
  · exact account_resolveAnneal passed
  · dsimp only
    split
    · exact account_absorbVerdict passed
    · split
      · rename_i outcome hcontradiction
        split at hcontradiction
        · exact (account_handleContradictoryPass hcontradiction).trans
            (account_absorbVerdict passed)
        · exact absurd hcontradiction (by simp)
      · unfold recordProven
        split
        · exact (account_advancePhase passed).trans (account_absorbVerdict passed)
        · exact (account_advancePhase passed).trans (account_absorbVerdict passed)

theorem accounts_pause : accounts state.pause = accounts state := by
  unfold SessionState.pause
  split <;> rfl

theorem accounts_restoreHuntStock (accepted : CoreId → Bool) :
    accounts (restoreHuntStock config state accepted) = accounts state := by
  unfold accounts SessionState.coreStates restoreHuntStock
  dsimp only
  split
  · rw [restoreStockVerified_coreStates]
  · dsimp only
    rw [restoreStockVerified_coreStates, List.map_map]
    rfl

theorem accounts_afterHuntResume (accepted : CoreId → Bool) (clearIncident : Bool) :
    accounts (afterHuntResume config state accepted clearIncident) = accounts state := by
  unfold afterHuntResume
  dsimp only
  split
  · exact accounts_restoreHuntStock accepted
  · exact accounts_restoreHuntStock accepted

/-- Moving a core that keeps its account changes no account. -/
theorem accounts_moveCore (hnodup : state.engine.coreIds.Nodup) {moved : CoreState}
    (hmem : cs ∈ state.coreStates) (hsame : moved.account = cs.account) :
    accounts { state with engine := state.engine.moveCore moved } = accounts state := by
  show (state.coreStates.map fun old =>
    if old.coreId = moved.coreId then moved else old).map CoreState.account = _
  rw [List.map_map]
  refine List.map_congr_left fun old hold => ?_
  have hid : moved.coreId = cs.coreId := congrArg Prod.fst hsame
  by_cases hcore : old.coreId = moved.coreId
  · have hold : old = cs :=
      List.inj_on_of_nodup_map hnodup hold hmem (hcore.trans hid)
    rw [Function.comp_apply, if_pos hcore, hsame, hold]
  · simp only [Function.comp_apply, if_neg hcore]

theorem accounts_failUnansweredStep (hnodup : state.engine.coreIds.Nodup) (hunt : HuntState) :
    accounts (failUnansweredStep config state hunt) = accounts state := by
  unfold failUnansweredStep
  split
  · split
    · rfl
    · rename_i cs hfind
      have hmoved : ∀ outcome : Outcome, outcome.core.account = cs.account →
          accounts { state with engine := state.engine.moveCore outcome.core } =
            accounts state :=
        fun outcome hsame => accounts_moveCore hnodup (List.mem_of_find?_eq_some hfind) hsame
      split
      · have hsame := account_advanceCore config { cs with batteryIndex := 0 } false
        dsimp only
        split
        · rw [accounts_pause]
          exact hmoved _ hsame
        · exact hmoved _ hsame
      · rfl
  · rfl

end Frame

/-! ## Suspicion stays non-negative -/

section Nonneg

variable {config : TunerConfig} {state next : SessionState}

theorem coreIds_eq (state : SessionState) :
    state.engine.coreIds = (accounts state).map Prod.fst := by
  rw [accounts, List.map_map]
  rfl

theorem Fair.of_accounts (hfair : Fair state) (hsame : accounts next = accounts state) :
    Fair next where
  nodup := by
    rw [coreIds_eq, hsame, ← coreIds_eq]
    exact hfair.nodup
  nonneg := by
    intro cs hcs
    have hmem : cs.account ∈ accounts state := hsame ▸ List.mem_map_of_mem hcs
    obtain ⟨old, hold, haccount⟩ := List.mem_map.mp hmem
    have hsuspicion : old.suspicion = cs.suspicion := congrArg Prod.snd haccount
    rw [← hsuspicion]
    exact hfair.nonneg old hold

theorem Fair.mapCores (hfair : Fair state) {change : CoreState → CoreState}
    (hid : ∀ cs, (change cs).coreId = cs.coreId)
    (hkeeps : ∀ cs, 0 ≤ cs.suspicion → 0 ≤ (change cs).suspicion) :
    Fair (state.mapCores change) where
  nodup := by
    show ((state.coreStates.map change).map CoreState.coreId).Nodup
    rw [List.map_map]
    have hids : (CoreState.coreId ∘ change) = CoreState.coreId := funext hid
    rw [hids]
    exact hfair.nodup
  nonneg := by
    intro cs hcs
    obtain ⟨old, hold, rfl⟩ := List.mem_map.mp hcs
    exact hkeeps old (hfair.nonneg old hold)

theorem Fair.exonerate (hfair : Fair state) (cores : List CoreId) :
    Fair (Suspicion.exonerate state cores) := by
  unfold Suspicion.exonerate
  induction cores generalizing state with
  | nil => exact hfair
  | cons core rest ih =>
      refine ih (hfair.mapCores (fun cs => ?_) fun cs hcs => ?_)
      · split <;> rfl
      · split
        · exact div_nonneg hcs (by norm_num)
        · exact hcs

theorem Fair.blameCore (hfair : Fair state) (core : CoreId) (resident : Option Int)
    (steps : Int) : Fair (Tuner.blameCore config state core resident steps) := by
  unfold Tuner.blameCore
  split
  · exact hfair
  · rename_i cs hfind
    dsimp only
    have hmoved : ∀ (moved : CoreState) (log : CoreId → List TestRow), moved.suspicion = 0 →
        Fair { state with engine := state.engine.moveCore moved, testLog := log } := by
      intro moved log hzero
      refine ⟨?_, fun other hother => ?_⟩
      · rw [moveCore_coreIds]
        exact hfair.nodup
      · obtain ⟨old, hold, rfl⟩ := List.mem_map.mp hother
        split
        · exact le_of_eq hzero.symm
        · exact hfair.nonneg old hold
    split
    · exact (hmoved _ _ rfl).of_accounts accounts_pause
    · exact hmoved _ _ rfl

/-- What a core of the live vector is credited with. -/
def credit (state : SessionState) (vector : List (CoreId × Int)) (cs : CoreState) : ℚ :=
  let live := if vector = [] then liveVector state.coreStates else vector
  let offset := (live.lookup cs.coreId).getD 0
  if offset = 0 then 0
  else max 1 ((offset.natAbs : ℚ) - medianLiveDepth live + 1) *
    (if state.lastTestedCore = some cs.coreId then 2 else 1)

theorem creditSuspicion_eq (state : SessionState) (vector : List (CoreId × Int)) :
    creditSuspicion state vector = state.mapCores fun cs =>
      { cs with suspicion := cs.suspicion + credit state vector cs } := by
  unfold creditSuspicion credit
  dsimp only
  generalize (if vector = [] then liveVector state.coreStates else vector) = live
  congr 1
  funext cs
  split
  · rw [add_zero]
  · rfl

theorem credit_nonneg (state : SessionState) (vector : List (CoreId × Int)) (cs : CoreState) :
    0 ≤ credit state vector cs := by
  unfold credit
  dsimp only
  generalize (if vector = [] then liveVector state.coreStates else vector) = live
  split
  · exact le_refl (0 : ℚ)
  · refine mul_nonneg (le_trans zero_le_one (le_max_left _ _)) ?_
    split <;> norm_num

/-- The session once a hunt without a reproduction has been counted. -/
def counted (state : SessionState) (hunt : HuntState) : SessionState :=
  { creditSuspicion state hunt.vector with
    huntState := .empty
    unattributedCrashes := state.unattributedCrashes + 1 }

theorem counted_coreStates (state : SessionState) (hunt : HuntState) :
    (counted state hunt).coreStates = state.coreStates.map fun cs =>
      { cs with suspicion := cs.suspicion + credit state hunt.vector cs } := by
  unfold counted
  rw [creditSuspicion_eq]
  rfl

theorem Fair.counted (hfair : Fair state) (hunt : HuntState) : Fair (counted state hunt) := by
  have hcredited : Fair (creditSuspicion state hunt.vector) := by
    rw [creditSuspicion_eq]
    exact hfair.mapCores (fun _ => rfl) fun cs hcs =>
      add_nonneg hcs (credit_nonneg state hunt.vector cs)
  exact hcredited.of_accounts rfl

theorem resolveHunt_of_exhausted {hunt : HuntState}
    (hexhausted : ¬ (hunt.stage = .culprit ∧ hunt.found ≠ [])) (accepted : CoreId → Bool) :
    resolveHunt config state hunt accepted =
      match suspicionVerdict config (counted state hunt) with
      | some core =>
          afterHuntResume config
            (blameCore config (counted state hunt) core (hunt.vector.lookup core) 1) accepted true
      | none =>
          let answered := failUnansweredStep config (counted state hunt) hunt
          if answered.paused then restoreHuntStock config answered accepted
          else afterHuntResume config answered accepted false := by
  unfold resolveHunt
  rw [if_neg hexhausted]
  rfl

theorem Fair.resolveHunt (hfair : Fair state) (hunt : HuntState) (accepted : CoreId → Bool) :
    Fair (Tuner.resolveHunt config state hunt accepted) := by
  by_cases hculprit : hunt.stage = .culprit ∧ hunt.found ≠ []
  · unfold Tuner.resolveHunt
    rw [if_pos hculprit]
    refine Fair.of_accounts ?_ (accounts_afterHuntResume accepted true)
    have hstart : Fair { state with huntState := .empty } := hfair.of_accounts rfl
    generalize hunt.found = found
    generalize { state with huntState := .empty } = started at hstart ⊢
    induction found generalizing started with
    | nil => exact hstart
    | cons core rest ih => exact ih _ (hstart.blameCore core _ _)
  · rw [resolveHunt_of_exhausted hculprit accepted]
    have hcounted := hfair.counted hunt
    split
    · exact (hcounted.blameCore _ _ _).of_accounts (accounts_afterHuntResume accepted true)
    · have hkept := @accounts_failUnansweredStep config _ hcounted.nodup hunt
      have hfailed := hcounted.of_accounts hkept
      dsimp only
      split
      · exact hfailed.of_accounts (accounts_restoreHuntStock accepted)
      · exact hfailed.of_accounts (accounts_afterHuntResume accepted false)

theorem fair_of_reachable (hreach : (accusing config).Reachable state) : Fair state := by
  refine hreach.invariant (fun _ hstart => hstart) ?_
  intro state event next hfair _ hstep
  cases event with
  | resolve hunt accepted =>
      obtain rfl := Option.some.inj hstep
      exact hfair.resolveHunt hunt accepted
  | exonerate cores =>
      obtain rfl := Option.some.inj hstep
      exact hfair.exonerate cores
  | search other =>
      simp only [accusing, Option.ite_none_right_eq_some, Option.some.injEq] at hstep
      obtain ⟨hsame, rfl⟩ := hstep
      exact hfair.of_accounts hsame

end Nonneg

/-! ## Whom it charges -/

section Convictions

variable {config : TunerConfig} {state : SessionState} {hunt : HuntState} {core : CoreId}

/-- A core is charged: its log has a row more. -/
def Charged (state next : SessionState) (core : CoreId) : Prop :=
  (state.testLog core).length < (next.testLog core).length

instance (state next : SessionState) (core : CoreId) : Decidable (Charged state next core) :=
  inferInstanceAs (Decidable (_ < _))

/-- The verdict on a session is the core that stands out, once the failures are enough. -/
theorem suspicionVerdict_eq_some_iff (hseparation : 0 ≤ config.suspicionSeparation) :
    suspicionVerdict config state = some core ↔
      config.suspicionMinFailures ≤ state.unattributedCrashes ∧
        ∃ before cs after, state.coreStates = before ++ cs :: after ∧ cs.coreId = core ∧
          StandsOut CoreState.suspicion config.suspicionSeparation before cs after := by
  have hranked : (state.coreStates.insertionSort fun cs other =>
      other.suspicion ≤ cs.suspicion) = ranked CoreState.suspicion state.coreStates := rfl
  unfold suspicionVerdict
  rw [hranked]
  by_cases hfew : (state.unattributedCrashes : Int) < config.suspicionMinFailures
  · rw [if_pos hfew]
    exact iff_of_false (by simp) fun henough => absurd henough.1 (not_le_of_gt hfew)
  · rw [if_neg hfew]
    have henough := not_lt.mp hfew
    constructor
    · intro hverdict
      split at hverdict
      · rename_i first second rest hfirst
        split at hverdict
        · exact absurd hverdict (by simp)
        · rename_i hclear
          rw [not_or, not_le] at hclear
          obtain ⟨before, after, hsplit, hstands⟩ := standsOut_of_clear hseparation hfirst hclear
          exact ⟨henough, before, first, after, hsplit, Option.some.inj hverdict, hstands⟩
      · exact absurd hverdict (by simp)
    · rintro ⟨-, before, cs, after, hsplit, rfl, hstands⟩
      obtain ⟨second, rest, hfirst, hclear⟩ := clear_of_standsOut hsplit hstands
      rw [hfirst]
      dsimp only
      rw [if_neg]
      rintro (hnone | hclose)
      · exact not_lt_of_ge hnone hclear.1
      · exact hclear.2 hclose

/-- An exhausted hunt charges the core of the verdict, and no other. -/
theorem charged_iff (hexhausted : ¬ (hunt.stage = .culprit ∧ hunt.found ≠ []))
    (hseparation : 0 ≤ config.suspicionSeparation) (accepted : CoreId → Bool) :
    Charged state (resolveHunt config state hunt accepted) core ↔
      suspicionVerdict config (counted state hunt) = some core := by
  have hresume : ∀ (next : SessionState) (clearIncident : Bool),
      (afterHuntResume config next accepted clearIncident).testLog = next.testLog := by
    intro next clearIncident
    unfold afterHuntResume
    dsimp only
    split <;> rfl
  -- Only a blamed core gets a row in the test log; nothing else of the resolution writes there.
  have hanswered : (failUnansweredStep config (counted state hunt) hunt).testLog =
      state.testLog := by
    unfold failUnansweredStep
    split
    · split
      · rfl
      · split
        · dsimp only
          split
          · unfold SessionState.pause
            split <;> rfl
          · rfl
        · rfl
    · rfl
  rw [resolveHunt_of_exhausted hexhausted accepted]
  unfold Charged
  cases hverdict : suspicionVerdict config (counted state hunt) with
  | none =>
      refine iff_of_false ?_ (by simp)
      dsimp only
      split
      · rw [show (restoreHuntStock config _ accepted).testLog = _ from hanswered]
        exact lt_irrefl _
      · rw [hresume, hanswered]
        exact lt_irrefl _
  | some charged =>
      obtain ⟨-, before, cs, after, hsplit, hid, -⟩ :=
        (suspicionVerdict_eq_some_iff hseparation).mp hverdict
      -- The blame reaches the core that the verdict names, as that is a core of the session.
      have hknown : charged ∈ (counted state hunt).engine.coreIds := by
        refine List.mem_map.mpr ⟨cs, ?_, hid⟩
        show cs ∈ (counted state hunt).coreStates
        rw [hsplit]
        exact List.mem_append_right _ List.mem_cons_self
      obtain ⟨-, row, hlog⟩ := blameCore_log config (counted state hunt) hknown
        (hunt.vector.lookup charged) 1
      dsimp only
      rw [hresume, hlog, Option.some.injEq]
      by_cases hsame : core = charged
      · subst hsame
        rw [Function.update_self, List.length_append, List.length_singleton]
        exact iff_of_true (Nat.lt_succ_self _) rfl
      · rw [Function.update_of_ne hsame]
        exact iff_of_false (lt_irrefl _) fun heq => hsame heq.symm

/-- The core was live, the failures are enough, and no other core comes near. -/
structure Convincing (config : TunerConfig) (state : SessionState) (hunt : HuntState)
    (core : CoreId) : Prop where
  live : (hunt.vector.lookup core).getD 0 ≠ 0
  failures : config.suspicionMinFailures ≤ state.unattributedCrashes + 1
  separated : ∀ cs ∈ (creditSuspicion state hunt.vector).coreStates, cs.coreId = core →
    ∀ other ∈ (creditSuspicion state hunt.vector).coreStates, other.coreId ≠ core →
      config.suspicionSeparation * other.suspicion ≤ cs.suspicion

/-- The suspicion of a core before a hunt, with what the hunt adds to it. -/
def accusation (state : SessionState) (vector : List (CoreId × Int)) (cs : CoreState) : ℚ :=
  cs.suspicion + credit state vector cs

/-- The suspicion that counts against a core at stock: the one before the hunt.  Only where the
vector is empty, and the live vector stands in for it, does the hunt add to it. -/
def standing (state : SessionState) (vector : List (CoreId × Int)) (cs : CoreState) : ℚ :=
  if vector = [] then accusation state vector cs else cs.suspicion

/-- The failures are enough, and a core that the vector has at stock was accused of so much before
that no other core comes near, with what the hunt adds to those. -/
def StockStandsOut (config : TunerConfig) (state : SessionState) (hunt : HuntState) : Prop :=
  config.suspicionMinFailures ≤ state.unattributedCrashes + 1 ∧
    ∃ before cs after, state.coreStates = before ++ cs :: after ∧ before ++ after ≠ [] ∧
      (hunt.vector.lookup cs.coreId).getD 0 = 0 ∧ 0 < standing state hunt.vector cs ∧
      (∀ other ∈ before,
        accusation state hunt.vector other < standing state hunt.vector cs) ∧
      ∀ other ∈ before ++ after,
        config.suspicionSeparation * accusation state hunt.vector other ≤
          standing state hunt.vector cs

/-- A hunt adds nothing to a core that its vector has at stock. -/
theorem standing_of_stock {vector : List (CoreId × Int)} {cs : CoreState}
    (hstock : (vector.lookup cs.coreId).getD 0 = 0) :
    standing state vector cs = accusation state vector cs := by
  unfold standing
  split
  · rfl
  · next hvector =>
      have hcredit : credit state vector cs = 0 := by
        unfold credit
        rw [if_neg hvector]
        exact if_pos hstock
      rw [accusation, hcredit, add_zero]

/-- Where no suspicion is negative, a lead by the factor is a lead. -/
theorem standsOut_accusation_iff (hseparation : 1 ≤ config.suspicionSeparation)
    {before after : List CoreState} {cs : CoreState} {vector : List (CoreId × Int)}
    (hnonneg : ∀ other ∈ after, 0 ≤ other.suspicion) :
    StandsOut (accusation state vector) config.suspicionSeparation before cs after ↔
      before ++ after ≠ [] ∧ 0 < accusation state vector cs ∧
        (∀ other ∈ before, accusation state vector other < accusation state vector cs) ∧
        ∀ other ∈ before ++ after,
          config.suspicionSeparation * accusation state vector other ≤
            accusation state vector cs := by
  constructor
  · rintro ⟨hothers, hpositive, hleads, hfactor⟩
    exact ⟨hothers, hpositive, hleads.1, hfactor⟩
  · rintro ⟨hothers, hpositive, hbefore, hfactor⟩
    refine ⟨hothers, hpositive, ⟨hbefore, fun other hother => ?_⟩, hfactor⟩
    have haccused : 0 ≤ accusation state vector other :=
      add_nonneg (hnonneg other hother) (credit_nonneg state vector other)
    calc accusation state vector other
        ≤ config.suspicionSeparation * accusation state vector other :=
          le_mul_of_one_le_left haccused hseparation
      _ ≤ accusation state vector cs := hfactor other (List.mem_append_right _ hother)

/-- Crediting a core keeps its id and adds its credit. -/
def credited (state : SessionState) (vector : List (CoreId × Int)) (cs : CoreState) : CoreState :=
  { cs with suspicion := cs.suspicion + credit state vector cs }

/-- Whom the verdict names, by the scores before the hunt and what the hunt credits. -/
theorem verdict_counted_iff (hseparation : 0 ≤ config.suspicionSeparation) :
    suspicionVerdict config (counted state hunt) = some core ↔
      config.suspicionMinFailures ≤ state.unattributedCrashes + 1 ∧
        ∃ before cs after, state.coreStates = before ++ cs :: after ∧ cs.coreId = core ∧
          StandsOut (accusation state hunt.vector) config.suspicionSeparation before cs after := by
  have hscore : accusation state hunt.vector =
      fun cs => (credited state hunt.vector cs).suspicion := rfl
  have hcounted : (counted state hunt).coreStates =
      state.coreStates.map (credited state hunt.vector) := counted_coreStates state hunt
  rw [suspicionVerdict_eq_some_iff hseparation, hcounted, hscore]
  refine and_congr (by show _ ≤ ((state.unattributedCrashes + 1 : Nat) : Int) ↔ _; rw [Nat.cast_succ]) ?_
  constructor
  · rintro ⟨before, cs, after, hsplit, hid, hstands⟩
    obtain ⟨front, tail, hstate, rfl, htail⟩ := List.map_eq_append_iff.mp hsplit
    obtain ⟨old, back, rfl, rfl, rfl⟩ := List.map_eq_cons_iff.mp htail
    exact ⟨front, old, back, hstate, hid, (standsOut_map _ _ _ _ _ _).mp hstands⟩
  · rintro ⟨before, cs, after, hsplit, hid, hstands⟩
    refine ⟨before.map (credited state hunt.vector), credited state hunt.vector cs,
      after.map (credited state hunt.vector), ?_, hid, (standsOut_map _ _ _ _ _ _).mpr hstands⟩
    rw [hsplit, List.map_append, List.map_cons]

theorem one_le_suspicionSeparation (hvalid : config.Valid) : 1 ≤ config.suspicionSeparation :=
  (hvalid.bound (List.mem_of_getElem? (i := 30) rfl)).1

/-- In every run, suspicion is non-negative; and a hunt that is exhausted charges only cores
that were live and stand out, if and only if no core that it had at stock stands out. -/
theorem convicts_iff (hvalid : config.Valid) (hreach : (accusing config).Reachable state)
    (hexhausted : ¬ (hunt.stage = .culprit ∧ hunt.found ≠ [])) (accepted : CoreId → Bool) :
    ((∀ cs ∈ state.coreStates, 0 ≤ cs.suspicion) ∧
      ∀ core, Charged state (resolveHunt config state hunt accepted) core →
        Convincing config state hunt core) ↔
      ¬ StockStandsOut config state hunt := by
  have hfair := fair_of_reachable hreach
  have hone := one_le_suspicionSeparation hvalid
  have hseparation : 0 ≤ config.suspicionSeparation := le_trans zero_le_one hone
  have hnonneg : ∀ {before cs after}, state.coreStates = before ++ cs :: after →
      ∀ other ∈ after, 0 ≤ other.suspicion := by
    intro before cs after hsplit other hother
    refine hfair.nonneg other ?_
    rw [hsplit]
    exact List.mem_append_right _ (List.mem_cons_of_mem _ hother)
  constructor
  · rintro ⟨-, hconvincing⟩ ⟨hfailures, before, cs, after, hsplit, hothers, hstock, hstands⟩
    refine (hconvincing cs.coreId ?_).live hstock
    rw [charged_iff hexhausted hseparation, verdict_counted_iff hseparation]
    rw [standing_of_stock hstock] at hstands
    exact ⟨hfailures, before, cs, after, hsplit, rfl,
      (standsOut_accusation_iff hone (hnonneg hsplit)).mpr ⟨hothers, hstands⟩⟩
  · intro hnone
    refine ⟨hfair.nonneg, fun core hcharged => ?_⟩
    rw [charged_iff hexhausted hseparation, verdict_counted_iff hseparation] at hcharged
    obtain ⟨hfailures, before, cs, after, hsplit, rfl, hstands⟩ := hcharged
    refine ⟨fun hstock => hnone ?_, hfailures, ?_⟩
    · obtain ⟨hothers, hleads⟩ := (standsOut_accusation_iff hone (hnonneg hsplit)).mp hstands
      refine ⟨hfailures, before, cs, after, hsplit, hothers, hstock, ?_⟩
      rwa [standing_of_stock hstock]
    rw [creditSuspicion_eq]
    intro first hfirst hid other hother hne
    obtain ⟨old, hold, rfl⟩ := List.mem_map.mp hfirst
    obtain ⟨rival, hrival, rfl⟩ := List.mem_map.mp hother
    have hmem : cs ∈ state.coreStates := hsplit ▸ List.mem_append_right _ List.mem_cons_self
    obtain rfl : old = cs := List.inj_on_of_nodup_map hfair.nodup hold hmem hid
    have hapart : rival ∈ before ++ after := by
      have hplace : rival ∈ before ++ old :: after := hsplit ▸ hrival
      rw [List.mem_append, List.mem_cons] at hplace
      rcases hplace with hbefore | rfl | hafter
      · exact List.mem_append_left _ hbefore
      · exact absurd rfl hne
      · exact List.mem_append_right _ hafter
    exact hstands.2.2.2 rival hapart

end Convictions

/-! ## A core that is accused, and then at stock -/

/-- Three cores that nothing is known of; the last one that was tested is core 1. -/
def threeCores : SessionState :=
  { engine :=
      { topology := [0, 1, 2]
        coRange := (-50, 30)
        coreStates := [{ coreId := 0 }, { coreId := 1 }, { coreId := 2 }] }
    lastTestedCore := some 1 }

/-- A hunt that is opened over the cores a crash vector has off stock, with this load, and all of
whose probes come back clean. -/
def cleanHunt (vector : List (CoreId × Int)) (loaded : List CoreId) : Option HuntState :=
  match begin (huntCandidates threeCores.engine.coreIds vector) loaded 0 with
  | .error _ => none
  | .ok opened =>
      drive (fun _ => false) ({} : TunerConfig).maxUnattributedCrashHunts.toNat 24
        { opened with vector }

/-- A hunt that the probes exhaust, as it is resolved. -/
structure Exhausts (hunt : HuntState) (vector : List (CoreId × Int)) (loaded : List CoreId) :
    Prop where
  driven : cleanHunt vector loaded = some hunt
  exhausted : hunt.stage = .exhausted
  vector : hunt.vector = vector

/-- The session after the clean hunt of a vector. -/
def afterHunt (state : SessionState) (vector : List (CoreId × Int)) : SessionState :=
  match cleanHunt vector [1] with
  | none => state
  | some hunt => resolveHunt {} state hunt fun _ => true

def afterHunts (vectors : List (List (CoreId × Int))) : SessionState :=
  vectors.foldl afterHunt threeCores

theorem reachable_afterHunts (vectors : List (List (CoreId × Int))) :
    (accusing {}).Reachable (afterHunts vectors) := by
  have hfrom : ∀ state, (accusing {}).Reachable state →
      (accusing {}).Reachable (vectors.foldl afterHunt state) := by
    induction vectors with
    | nil => exact fun state hreach => hreach
    | cons vector rest ih =>
        intro state hreach
        refine ih _ ?_
        unfold afterHunt
        split
        · exact hreach
        · next hunt _ =>
            exact .step hreach (show StepSystem.anyStep state
              (.resolve hunt fun _ => true) from trivial) rfl
  exact hfrom threeCores (.start ⟨by decide, by decide +kernel⟩)

/-- Two hunts accuse the deepest core, and nobody is charged yet. -/
def accused : SessionState :=
  afterHunts [[(0, -30), (1, -2), (2, -2)], [(0, -30), (1, -2), (2, -2)]]

theorem reachable_accused : (accusing {}).Reachable accused := reachable_afterHunts _

/-- The hunt of a vector that has at most one core off stock ends with a culprit. -/
example : (cleanHunt [(0, 0), (1, -2)] [1]).map (·.stage) = some .culprit := by decide +kernel

theorem exists_exhausts {vector : List (CoreId × Int)} {loaded : List CoreId}
    (hview : (cleanHunt vector loaded).map (fun hunt => (hunt.stage, hunt.vector)) =
      some (.exhausted, vector)) : ∃ hunt, Exhausts hunt vector loaded := by
  obtain ⟨hunt, hdriven, hends⟩ := Option.map_eq_some_iff.mp hview
  obtain ⟨hstage, hvector⟩ := Prod.mk.inj hends
  exact ⟨hunt, hdriven, hstage, hvector⟩

/-- The deepest core is charged by the third hunt with the same vector. -/
theorem convicts_iff_sample :
    ∃ hunt, Exhausts hunt [(0, -30), (1, -2), (2, -2)] [1] ∧
      Charged accused (resolveHunt {} accused hunt fun _ => true) 0 ∧
      Convincing {} accused hunt 0 := by
  obtain ⟨hunt, hexhausts⟩ :=
    @exists_exhausts [(0, -30), (1, -2), (2, -2)] [1] (by decide +kernel)
  have hexhausted : ¬ (hunt.stage = .culprit ∧ hunt.found ≠ []) := by
    simp [hexhausts.exhausted]
  have hcharged : Charged accused (resolveHunt {} accused hunt fun _ => true) 0 := by
    have hall : (cleanHunt [(0, -30), (1, -2), (2, -2)] [1]).all (fun hunt =>
        decide (Charged accused (resolveHunt {} accused hunt fun _ => true) 0)) = true := by
      decide +kernel
    rw [hexhausts.driven] at hall
    exact of_decide_eq_true hall
  have hids : accused.engine.coreIds = [0, 1, 2] := by decide +kernel
  refine ⟨hunt, hexhausts, hcharged, ((convicts_iff (by decide +kernel) reachable_accused
    hexhausted (fun _ => true)).mpr ?_).2 0 hcharged⟩
  -- Every core of the session is off stock in the vector.
  rintro ⟨-, before, cs, after, hsplit, -, hstock, -⟩
  have hmem : cs.coreId ∈ [0, 1, 2] := by
    have hcs : cs ∈ accused.coreStates := by
      rw [hsplit]
      exact List.mem_append_right _ List.mem_cons_self
    rw [← hids]
    exact List.mem_map.mpr ⟨cs, hcs, rfl⟩
  rw [hexhausts.vector] at hstock
  revert hstock
  revert hmem
  generalize cs.coreId = core
  revert core
  decide

/-- The core that two hunts accuse is charged by the third, which had it at stock. -/
theorem not_convincing :
    ¬ ∀ (config : TunerConfig) (state : SessionState), config.Valid →
      (accusing config).Reachable state → ∀ (hunt : HuntState) (accepted : CoreId → Bool),
      ¬ (hunt.stage = .culprit ∧ hunt.found ≠ []) →
      (∀ cs ∈ state.coreStates, 0 ≤ cs.suspicion) ∧
        ∀ core, Charged state (resolveHunt config state hunt accepted) core →
          Convincing config state hunt core := by
  intro hclaim
  obtain ⟨hunt, hexhausts⟩ :=
    @exists_exhausts [(0, 0), (1, -2), (2, -2)] [1] (by decide +kernel)
  have hconvincing := (hclaim {} accused (by decide +kernel) reachable_accused hunt
    (fun _ => true) (by simp [hexhausts.exhausted])).2 0 ?_
  · exact hconvincing.live (by rw [hexhausts.vector]; decide)
  · have hall : (cleanHunt [(0, 0), (1, -2), (2, -2)] [1]).all (fun hunt =>
        decide (Charged accused (resolveHunt {} accused hunt fun _ => true) 0)) = true := by
      decide +kernel
    rw [hexhausts.driven] at hall
    exact of_decide_eq_true hall

end Suspicion

end Tuner
end CoreCycler
