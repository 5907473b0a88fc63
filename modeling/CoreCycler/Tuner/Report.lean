import CoreCycler.Tuner.Bisect
import CoreCycler.Tuner.FailBounds
import CoreCycler.Tuner.FailureRetreats

/-!
# The offsets a report recommends

The report recommends the proven offset of a core, moved a guard band toward stock for the
BIOS.  The proven offset is a field of its own: a confirming PASS and an annealing probe
write it, and nothing else does, so what fails or moves a core later has to fail or move it
past that offset.  `ReportWatch` keeps the failures charged since; `KeepsReport` says which
steps keep the recommendation unrefuted.
-/

namespace CoreCycler
namespace Tuner

open Library TunerConfig Bisect

/-! ## The report -/

/-- Move a proven runtime offset toward its stock baseline for BIOS use. -/
def biosOffset (provenOffset baselineOffset direction fineStep guardBandSteps : Int) : Int :=
  let guarded := provenOffset - direction * fineStep * guardBandSteps
  if direction * (guarded - baselineOffset) ≤ 0 then baselineOffset else guarded

/-- The status of a session, as far as the report looks at it. -/
inductive ReportStatus
  /-- Running, paused, hunting, validating or aborted. -/
  | running
  | completed
  /-- `platform_fault` or `profile_quarantined`: `_UNREPORTABLE_STATUSES`. -/
  | unreportable
deriving DecidableEq, Repr

/-- A row of the report. -/
structure ReportRow where
  core : CoreId
  acceptedOffset : Option Int
  provenOffset : Option Int
  biosOffset : Option Int
  candidateOffset : Int
  /-- The offset whose regime banks are shown. -/
  evidenceOffset : Int
  phase : TunerPhase
  annealStrikes : Int
  suspicion : ℚ
  crashes : Int

/-- `_project_core_row`. -/
def projectCoreRow (status : ReportStatus) (config : TunerConfig) (cs : CoreState) : ReportRow :=
  let accepted := if status = .unreportable then none else cs.provenOffset
  { core := cs.coreId
    acceptedOffset := accepted
    provenOffset := cs.provenOffset
    biosOffset := accepted.map fun offset =>
      biosOffset offset cs.baselineOffset config.direction config.fineStep
        config.biosGuardBandSteps
    candidateOffset := cs.currentOffset
    evidenceOffset := cs.provenOffset.getD (cs.bestOffset.getD cs.currentOffset)
    phase := cs.phase
    annealStrikes := cs.annealStrikes
    suspicion := cs.suspicion
    crashes := cs.crashCount }

variable {config : TunerConfig} {cs next : CoreState}

/-- With the baseline no deeper than the proven offset, the BIOS offset is not either. -/
theorem biosOffset_depth_le (hvalid : config.Valid) {proven baseline : Int}
    (hbase : config.depth baseline ≤ config.depth proven) :
    config.depth (biosOffset proven baseline config.direction config.fineStep
      config.biosGuardBandSteps) ≤ config.depth proven := by
  have hdir := hvalid.direction
  have hguard : (0 : ℚ) ≤ config.biosGuardBandSteps :=
    (hvalid.bound (List.mem_of_getElem? (i := 4) rfl)).1
  have hband : 0 ≤ config.fineStep * config.biosGuardBandSteps :=
    mul_nonneg (by have := hvalid.fineStep_pos; omega) (by exact_mod_cast hguard)
  unfold biosOffset
  dsimp only
  split
  · exact hbase
  · rw [mul_assoc, depth_sub hdir]
    omega

/-! ## The proven offset -/

/-- An annealing probe at or past the fail bound. -/
def annealContradicted (config : TunerConfig) (cs : CoreState) : Bool :=
  match cs.backoffFailBound with
  | some bound =>
      decide (cs.currentOffset = bound) || config.isMoreAggressive cs.currentOffset bound
  | none => false

/-- The PASSes that write the proven offset: those that confirm the core, and an annealing
probe short of the fail bound. -/
def provesOffset (config : TunerConfig) (cs : CoreState) : Bool :=
  if cs.phase = .annealing then !annealContradicted config cs
  else decide ((advanceCore config cs true).core.phase = .confirmed)

theorem advancePhase_provenOffset (cs : CoreState) (passed : Bool) :
    (advancePhase config cs passed).core.provenOffset = cs.provenOffset := by
  unfold advancePhase
  split
  · rfl
  · unfold advanceCoarse
    dsimp only
    split_ifs <;> [rfl; rfl; skip]
    split <;> rfl
  · dsimp only [advanceFine]
    split_ifs <;> rfl
  · unfold advanceSettled
    split <;> rfl
  · dsimp only [advanceConfirming]
    split_ifs <;> rfl
  · unfold advanceFailedConfirm
    split <;> [(dsimp only; split_ifs); skip] <;> rfl
  · dsimp only
    split
    · unfold preconfirmPass
      dsimp only
      split <;> [split_ifs; skip] <;> rfl
    · unfold preconfirmFail
      dsimp only
      split <;> [split_ifs; skip] <;> rfl
  · dsimp only
    split
    · unfold backoffConfirmPass
      dsimp only
      split <;> [split_ifs; skip] <;> rfl
    · unfold backoffConfirmFail
      dsimp only
      split <;> rfl
  · rfl
  · rfl

theorem absorbVerdict_provenOffset (cs : CoreState) (passed : Bool) :
    (absorbVerdict config cs passed).provenOffset = cs.provenOffset := by
  unfold absorbVerdict normalizeBest recordBackoffFail
  dsimp only
  split_ifs <;> rfl

theorem handleContradictoryPass_proven {outcome : Outcome}
    (hsome : handleContradictoryPass config cs = some outcome) :
    outcome.core.provenOffset = cs.provenOffset ∧ outcome.core.phase = .backoffPreconfirm := by
  unfold handleContradictoryPass at hsome
  split at hsome
  · cases hsome
  · dsimp only at hsome
    split_ifs at hsome
    · cases hsome
      exact ⟨rfl, rfl⟩
    · cases hsome
      exact ⟨rfl, rfl⟩

/-- A PASS is contradicted, or takes the step of its phase. -/
theorem advanceCore_pass_cases (hphase : cs.phase ≠ .annealing) :
    (∃ outcome, handleContradictoryPass config (absorbVerdict config cs true) = some outcome ∧
        advanceCore config cs true = outcome) ∨
      advanceCore config cs true =
        recordProven (advancePhase config (absorbVerdict config cs true) true) true := by
  have hopen : baselineFailed config (absorbVerdict config cs true) true = false := by
    simp [baselineFailed]
  unfold advanceCore
  simp only [if_neg hphase, hopen, Bool.false_eq_true, if_false, Bool.true_and]
  split
  · next outcome hcontra => exact .inl ⟨outcome, (Option.ite_none_right_eq_some.mp hcontra).2, rfl⟩
  · exact .inr rfl

/-- What a PASS makes of the proven offset. -/
theorem advanceCore_provenOffset_pass (cs : CoreState) :
    (advanceCore config cs true).core.provenOffset =
      if provesOffset config cs then (advanceCore config cs true).core.bestOffset
      else cs.provenOffset := by
  unfold provesOffset
  by_cases hphase : cs.phase = .annealing
  · rw [if_pos hphase, advanceCore_annealing hphase]
    unfold resolveAnneal annealContradicted
    cases hbound : cs.backoffFailBound with
    | none => simp
    | some bound =>
        by_cases hpast : (decide (cs.currentOffset = bound) ||
            config.isMoreAggressive cs.currentOffset bound) = true
        · simp [hpast]
        · simp [hpast]
  · rw [if_neg hphase]
    have habsorb := @absorbVerdict_provenOffset config cs true
    rcases @advanceCore_pass_cases config cs hphase with
      ⟨outcome, hcontra, hadvance⟩ | hadvance
    · obtain ⟨hproven, hback⟩ := handleContradictoryPass_proven hcontra
      simp only [hadvance, hproven, hback, habsorb]
      rfl
    · have hstep := @advancePhase_provenOffset config
        (absorbVerdict config cs true) true
      simp only [hadvance, recordProven]
      by_cases hconfirmed : (advancePhase config (absorbVerdict config cs true) true).core.phase =
          .confirmed
      · simp [hconfirmed]
      · simp [hconfirmed, hstep, habsorb]

/-- A FAIL keeps the proven offset. -/
theorem advanceCore_provenOffset_fail (cs : CoreState) :
    (advanceCore config cs false).core.provenOffset = cs.provenOffset := by
  have habsorb := @absorbVerdict_provenOffset config cs false
  unfold advanceCore
  split
  · unfold resolveAnneal
    rfl
  · dsimp only
    split
    · exact habsorb
    · simp only [Bool.false_and, Bool.false_eq_true, if_false, recordProven_false]
      rw [advancePhase_provenOffset, habsorb]

/-! ## The ground of a core -/

namespace Track

/-- The baseline is no deeper than what is known or under test. -/
structure Grounded (cap : Int) (track : Track) : Prop where
  known : track.baseline ≤ track.known
  current : isStepped track.phase = true → track.baseline ≤ track.current
  cap : track.phase = .coarseSearch ∨ track.phase = .fineSearch → track.baseline ≤ cap

variable {fine cap : Int} {before after : Track}

theorem Grounded.passed (hgrounded : before.Grounded cap)
    (hpassed : Passed fine cap before after) : after.Grounded cap := by
  obtain ⟨hknown, hcurrent, hcap⟩ := hgrounded
  cases hpassed with
  | deeper hphase hlt hle =>
      have hbase := hcurrent (by rcases hphase with hphase | hphase <;> simp [hphase, isStepped])
      exact ⟨hbase, fun _ => hbase.trans hlt.le, hcap⟩
  | searched hphase =>
      have hbase := hcurrent (by rcases hphase with hphase | hphase <;> simp [hphase, isStepped])
      exact ⟨hbase, by simp [isStepped], by simp⟩
  | confirmed _ => exact ⟨hknown, by simp [isStepped], by simp⟩
  | annealed hphase _ =>
      exact ⟨hcurrent (by simp [hphase, isStepped]), by simp [isStepped], by simp⟩
  | annealRefused _ => exact ⟨hknown, by simp [isStepped], by simp⟩
  | grounded _ => exact ⟨le_rfl, fun _ => le_rfl, by simp⟩
  | contradicted _ _ habove =>
      exact ⟨le_min hknown habove.le, fun _ => habove.le, by simp⟩
  | preconfirmed hphase _ =>
      have hbase := hcurrent (by simp [hphase, isStepped])
      exact ⟨hbase, fun _ => hbase, by simp⟩
  | backoffConfirmed hphase _ =>
      exact ⟨hcurrent (by simp [hphase, isStepped]), by simp [isStepped], by simp⟩
  | bisected hphase _ hlt _ =>
      have hbase := hcurrent (by
        rcases isBackoff_iff.mp hphase with hphase | hphase <;> simp [hphase, isStepped])
      exact ⟨hbase, fun _ => hbase.trans hlt.le, by simp⟩

theorem Grounded.failed (hgrounded : before.Grounded cap) (hbetween : before.PassBetween)
    (hfine : 0 ≤ fine) {paused : Bool} (hfailed : Failed fine cap before paused after) :
    after.Grounded cap := by
  have hkept := hgrounded
  obtain ⟨hknown, hcurrent, hcap⟩ := hgrounded
  have hstep : before.baseline ≤ before.stepBack fine := le_max_right _ _
  cases hfailed with
  | first _ _ => exact ⟨le_max_right _ _, fun _ => le_max_right _ _, by simp⟩
  | @probed best hphase hbest _ =>
      have hbase : before.baseline ≤ best := by rwa [Track.known, hbest] at hknown
      have hroom := hcap (.inl hphase)
      exact ⟨hknown, fun _ => le_min (hbase.trans (by omega)) hroom, fun _ => hroom⟩
  | bracketed _ _ => exact ⟨hknown, by simp [isStepped], by simp⟩
  | searched _ => exact ⟨hknown, by simp [isStepped], by simp⟩
  | confirmPaused _ _ => exact hkept
  | retried _ _ => exact hkept
  | givenUp _ _ => exact ⟨hknown, by simp [isStepped], by simp⟩
  | annealFailed _ => exact ⟨hknown, by simp [isStepped], by simp⟩
  | backoffPaused _ _ => exact ⟨hknown, hcurrent, hcap⟩
  | returned _ _ hpass =>
      have hbase := (hbetween.tightened _ hpass).1
      exact ⟨hbase, fun _ => hbase, by simp⟩
  | @bisected bound hphase _ hpass =>
      have hbase := (hbetween.tightened _ hpass).1
      have hhalf : 0 ≤ |before.failedAt before.current - bound| / 2 := by positivity
      refine ⟨hbase, fun _ => ?_, ?_⟩
      · show before.baseline ≤ bound + |before.failedAt before.current - bound| / 2
        omega
      · show before.phase = .coarseSearch ∨ before.phase = .fineSearch → _
        simp [hphase]
  | steppedBack hphase _ _ =>
      refine ⟨le_max_right _ _, fun _ => le_max_right _ _, ?_⟩
      show before.phase = .coarseSearch ∨ before.phase = .fineSearch → _
      simp [hphase]
  | floored hphase _ hpass =>
      have hbase := (hbetween.tightened _ hpass).1
      refine ⟨hbase, fun _ => hbase, ?_⟩
      show before.phase = .coarseSearch ∨ before.phase = .fineSearch → _
      simp [hphase]
  | reopened _ _ => exact ⟨hstep, fun _ => hstep, by simp⟩

theorem Grounded.left (hgrounded : before.Grounded cap) : (before.left fine).Grounded cap := by
  unfold Track.left
  split
  · exact ⟨hgrounded.known, fun _ => hgrounded.known, by simp⟩
  · exact ⟨le_max_right _ _, fun _ => le_max_right _ _, by simp⟩
  · exact hgrounded

/-- The penalties that keep the ground: at stock none that finds a baseline past stock under a
test; elsewhere none on the far side of stock that finds the best depth there. -/
def KeepsGround (track : Track) (resident : Int) : Prop :=
  if resident = 0 then isStepped track.phase = true → track.baseline ≤ 0
  else resident ≤ track.baseline →
    0 < resident ∨ ∀ best, track.best = some best → 0 ≤ best

theorem Grounded.penalized (hgrounded : before.Grounded cap) {resident back : Int}
    (hkeeps : before.KeepsGround resident) (hback : 0 < resident → back < resident)
    (hstock : resident ≤ 0 → back = 0) :
    (before.penalized resident back).Grounded cap := by
  obtain ⟨hknown, hcurrent, hcap⟩ := hgrounded
  unfold Track.penalized
  unfold Track.KeepsGround at hkeeps
  split
  · next hzero =>
      rw [if_pos hzero] at hkeeps
      exact ⟨hknown, hkeeps, hcap⟩
  next htuned =>
  rw [if_neg htuned] at hkeeps
  have hlanding := penalizedBaseline_le_landing before resident back
  refine ⟨le_min ?_ hlanding, fun _ => hlanding, ?_⟩
  · show before.penalizedBaseline resident back ≤
      before.best.getD (before.penalizedBaseline resident back)
    cases hbest : before.best with
    | none => exact le_rfl
    | some best =>
        rw [Track.known, hbest, Option.getD_some] at hknown
        rw [Option.getD_some, penalizedBaseline]
        split
        · next hle =>
            rcases lt_or_ge 0 resident with hpos | hneg
            · exact (hback hpos).le.trans (hle.trans hknown)
            · rw [hstock hneg]
              exact ((hkeeps hle).resolve_left (not_lt.mpr hneg)) best hbest
        · exact hknown
  · show (if forcedIntoBackoff before.phase then TunerPhase.backoffPreconfirm
      else before.phase) = _ ∨ _ → _
    cases hphase : before.phase <;> simp [forcedIntoBackoff]

theorem Grounded.pulled (hgrounded : before.Grounded cap) (survived : Int) :
    (before.pulled survived).Grounded cap := by
  obtain ⟨hknown, hcurrent, hcap⟩ := hgrounded
  refine ⟨?_, fun hphase => min_le_min_right _ (hcurrent hphase),
    fun hphase => (min_le_left _ _).trans (hcap hphase)⟩
  unfold Track.known Track.pulled
  dsimp only
  cases hbest : before.best with
  | none => exact le_rfl
  | some best =>
      rw [Track.known, hbest, Option.getD_some] at hknown
      exact min_le_min_right _ hknown

end Track

/-! ## The failures since -/

/-- The offset an event charges the core with a FAIL at. -/
def chargedAt (cs : CoreState) : CoreEvent → Option Int
  | .verdict false => some cs.currentOffset
  | .penalty resident _ _ => some resident
  | .backOff => cs.bestOffset
  | _ => none

/-- The event writes the proven offset. -/
def writesProven (config : TunerConfig) (cs : CoreState) : CoreEvent → Bool
  | .verdict true => provesOffset config cs
  | _ => false

/-- The best offset was moved back. -/
def movedBack (config : TunerConfig) (before after : Option Int) : Bool :=
  match before, after with
  | none, _ => false
  | some _, none => true
  | some old, some new => config.isMoreAggressive old new

/-- A core, and what happened to it since its proven offset was written. -/
structure ReportWatch where
  core : CoreState
  /-- The offsets it was charged with a FAIL at. -/
  failed : List Int := []
  /-- Its best offset was moved back. -/
  retreated : Bool := false

/-- The watch after an event that leaves the core as `core`. -/
def ReportWatch.after (config : TunerConfig) (watch : ReportWatch) (event : CoreEvent)
    (core : CoreState) : ReportWatch :=
  if writesProven config watch.core event then
    { core }
  else
    { core
      failed := (chargedAt watch.core event).toList ++ watch.failed
      retreated := watch.retreated || movedBack config watch.core.bestOffset core.bestOffset }

/-- An event that is no such PASS leaves the proven offset alone. -/
theorem stepCore_provenOffset {event : CoreEvent} (hstep : stepCore config cs event = some next)
    (hkeeps : writesProven config cs event = false) : next.provenOffset = cs.provenOffset := by
  have hleave : ∀ cs : CoreState, (leaveSettled config cs).provenOffset = cs.provenOffset := by
    intro cs
    unfold leaveSettled
    split
    · exact advanceCore_provenOffset_fail cs
    · rfl
  cases event with
  | launch =>
      obtain ⟨-, hnext⟩ := Option.ite_none_left_eq_some.mp hstep
      rw [← Option.some.inj hnext, prepareSlot, hleave]
      split
      · exact advanceCore_provenOffset_fail cs
      · rfl
  | verdict passed =>
      obtain ⟨-, hnext⟩ := Option.ite_none_right_eq_some.mp hstep
      rw [← Option.some.inj hnext]
      cases passed with
      | true =>
          have hkeeps' : provesOffset config cs = false := hkeeps
          rw [advanceCore_provenOffset_pass, hkeeps']
          rfl
      | false => exact advanceCore_provenOffset_fail cs
  | penalty resident steps countCrash =>
      obtain ⟨-, hnext⟩ := Option.ite_none_right_eq_some.mp hstep
      rw [← Option.some.inj hnext]
      unfold penalizeResident applyCrashPenalty recordCrash retreatFromCrash demoteBest
      dsimp only
      split_ifs <;> rfl
  | anneal hours =>
      obtain ⟨-, hnext⟩ := Option.ite_none_right_eq_some.mp hstep
      rw [← Option.some.inj hnext]
      rfl
  | backOff =>
      obtain ⟨-, hnext⟩ := Option.ite_none_right_eq_some.mp hstep
      unfold backoffCore at hnext
      split at hnext
      · cases hnext
      · split_ifs at hnext
        cases hnext
        rfl
  | reengage survived =>
      rw [← Option.some.inj hstep]
      rfl
  | rollback mostAggressivePass =>
      obtain ⟨-, hnext⟩ := Option.ite_none_right_eq_some.mp hstep
      rw [← Option.some.inj hnext]
      rfl
  | revalidate =>
      obtain ⟨-, hnext⟩ := Option.ite_none_right_eq_some.mp hstep
      obtain ⟨best, -, rfl⟩ := Option.map_eq_some_iff.mp hnext
      rfl
  | account books =>
      rw [← Option.some.inj hstep]
      rfl

/-- A PASS that writes the proven offset confirms the core at it. -/
theorem confirmed_of_writesProven {event : CoreEvent}
    (hstep : stepCore config cs event = some next) (hwrites : writesProven config cs event = true) :
    next.phase = .confirmed ∧ next.provenOffset = next.bestOffset := by
  unfold writesProven at hwrites
  split at hwrites
  · obtain ⟨-, hnext⟩ := Option.ite_none_right_eq_some.mp hstep
    rw [← Option.some.inj hnext, advanceCore_provenOffset_pass, if_pos hwrites]
    refine ⟨?_, rfl⟩
    unfold provesOffset at hwrites
    split at hwrites
    · next hphase =>
        rw [advanceCore_annealing hphase]
        rfl
    · exact decide_eq_true_eq.mp hwrites
  · cases hwrites

theorem Track.Failed.failBound_of {fine cap : Int} {before after : Track} {paused : Bool}
    (hfailed : Track.Failed fine cap before paused after) {bound : Int}
    (hbound : after.failBound = some bound) :
    before.failBound = some bound ∨ bound = before.current := by
  have htight : some (before.failedAt before.current) = some bound →
      before.failBound = some bound ∨ bound = before.current := by
    intro hsame
    rw [← Option.some.inj hsame, Track.failedAt]
    cases hold : before.failBound with
    | none => exact .inr (min_self _)
    | some old =>
        rcases min_choice old before.current with hmin | hmin
        · exact .inl (congrArg some hmin.symm)
        · exact .inr hmin
  cases hfailed with
  | first _ _ => exact .inr (Option.some.inj hbound).symm
  | probed _ _ _ | bracketed _ _ | searched _ | confirmPaused _ _ | retried _ _ | givenUp _ _
  | annealFailed _ => exact .inl hbound
  | backoffPaused _ _ | returned _ _ _ | bisected _ _ _ | steppedBack _ _ _ | floored _ _ _
  | reopened _ _ => exact htight hbound

/-- Whatever raises a fail bound is charged to the core. -/
theorem failBound_step (hvalid : config.Valid) {event : CoreEvent}
    (hstep : stepCore config cs event = some next) {bound : Int}
    (hbound : (trackOf config next).failBound = some bound) :
    (trackOf config cs).failBound = some bound ∨
      ∃ offset, chargedAt cs event = some offset ∧ bound = config.depth offset := by
  have hmove := stepCore_track hvalid hstep
  cases event with
  | launch =>
      rw [hmove.2] at hbound
      left
      split_ifs at hbound
      · exact hbound
      · unfold Track.left at hbound
        split at hbound <;> exact hbound
  | verdict passed =>
      cases passed with
      | true => exact .inl (hmove.2.failBound_eq ▸ hbound)
      | false =>
          obtain ⟨-, paused, hfailed⟩ := hmove
          exact (hfailed.failBound_of hbound).imp_right fun hsame => ⟨_, rfl, hsame⟩
  | penalty resident steps countCrash =>
      rw [hmove.2] at hbound
      unfold Track.penalized at hbound
      split at hbound
      · exact .inl hbound
      · have hsame := Option.some.inj hbound
        rw [Track.failedAt] at hsame
        cases hold : (trackOf config cs).failBound with
        | none =>
            rw [hold, Option.getD_none, min_self] at hsame
            exact .inr ⟨resident, rfl, hsame.symm⟩
        | some old =>
            rw [hold, Option.getD_some] at hsame
            -- The bound is the older one, or the depth charged now.
            rcases min_choice old (config.depth resident) with hmin | hmin
            · exact .inl (congrArg some (hmin.symm.trans hsame))
            · exact .inr ⟨resident, rfl, hsame.symm.trans hmin⟩
  | anneal hours =>
      rw [hmove.2.2] at hbound
      exact .inl hbound
  | backOff =>
      rw [hmove.2.2] at hbound
      exact .inl hbound
  | reengage survived =>
      rw [show trackOf config next = _ from hmove] at hbound
      exact .inl hbound
  | rollback mostAggressivePass =>
      rw [hmove.2] at hbound
      cases hbound
  | revalidate =>
      obtain ⟨-, best, -, htrack⟩ := hmove
      rw [htrack] at hbound
      exact .inl hbound
  | account books =>
      rw [show trackOf config next = _ from hmove] at hbound
      exact .inl hbound

theorem Track.Passed.baseline_eq {fine cap : Int} {before after : Track}
    (hpassed : Track.Passed fine cap before after) : after.baseline = before.baseline := by
  cases hpassed <;> rfl

theorem Track.Failed.baseline_eq {fine cap : Int} {before after : Track} {paused : Bool}
    (hfailed : Track.Failed fine cap before paused after) :
    after.baseline = before.baseline := by
  cases hfailed <;> rfl

/-- A baseline goes deeper only under a penalty at or past it. -/
theorem baseline_step (hvalid : config.Valid) {event : CoreEvent}
    (hstep : stepCore config cs event = some next) :
    config.depth next.baselineOffset ≤ config.depth cs.baselineOffset ∨
      ∃ offset, chargedAt cs event = some offset ∧
        config.depth offset ≤ config.depth cs.baselineOffset := by
  have hmove := stepCore_track hvalid hstep
  have hsame : (trackOf config next).baseline = (trackOf config cs).baseline →
      config.depth next.baselineOffset ≤ config.depth cs.baselineOffset := fun heq => heq.le
  cases event with
  | launch =>
      refine .inl (hsame ?_)
      rw [hmove.2]
      split_ifs
      · rfl
      · unfold Track.left
        split <;> rfl
  | verdict passed =>
      left
      cases passed with
      | true => exact hsame hmove.2.baseline_eq
      | false =>
          obtain ⟨-, paused, hfailed⟩ := hmove
          exact hsame hfailed.baseline_eq
  | penalty resident steps countCrash =>
      by_cases hle : config.depth resident ≤ config.depth cs.baselineOffset
      · exact .inr ⟨resident, rfl, hle⟩
      · refine .inl (hsame ?_)
        rw [hmove.2]
        unfold Track.penalized
        split
        · rfl
        · exact if_neg hle
  | anneal hours => exact .inl (hsame (by rw [hmove.2.2]; rfl))
  | backOff => exact .inl (hsame (by rw [hmove.2.2]; rfl))
  | reengage survived =>
      have hpulled := congrArg Track.baseline (show trackOf config next = _ from hmove)
      left
      show (trackOf config next).baseline ≤ _
      rw [hpulled]
      exact min_le_left _ _
  | rollback mostAggressivePass => exact .inl (hsame (by rw [hmove.2]; rfl))
  | revalidate =>
      obtain ⟨-, best, -, htrack⟩ := hmove
      exact .inl (hsame (by rw [htrack]; rfl))
  | account books => exact .inl (hsame (by rw [show trackOf config next = _ from hmove]))

/-! ## Unrefuted offsets -/

/-- Nothing on record refutes an offset. -/
structure Unrefuted (config : TunerConfig) (watch : ReportWatch) (offset : Int) : Prop where
  bound : ∀ bound, watch.core.backoffFailBound = some bound →
    config.depth offset < config.depth bound
  failed : ∀ failed ∈ watch.failed, config.depth offset < config.depth failed
  baseline : config.depth watch.core.baselineOffset ≤ config.depth offset
  best : watch.retreated = false → ∃ best, watch.core.bestOffset = some best ∧
    config.depth offset ≤ config.depth best

/-- An event that charges the core past the offset only leaves it unrefuted. -/
theorem Unrefuted.step (hvalid : config.Valid) {watch : ReportWatch} {offset : Int}
    {event : CoreEvent} (hunrefuted : Unrefuted config watch offset)
    (hstep : stepCore config watch.core event = some next)
    (hkeeps : writesProven config watch.core event = false)
    (hcharged : ∀ charged, chargedAt watch.core event = some charged →
      config.depth offset < config.depth charged) :
    Unrefuted config (watch.after config event next) offset := by
  have hdir := hvalid.direction
  have hafter : watch.after config event next =
      { core := next
        failed := (chargedAt watch.core event).toList ++ watch.failed
        retreated :=
          watch.retreated || movedBack config watch.core.bestOffset next.bestOffset } := by
    rw [ReportWatch.after, hkeeps]
    rfl
  rw [hafter]
  refine ⟨fun bound hbound => ?_, fun failed hfailed => ?_, ?_, fun hretreated => ?_⟩
  · have hdeep : (trackOf config next).failBound = some (config.depth bound) := by
      simp [trackOf, show next.backoffFailBound = some bound from hbound]
    rcases failBound_step hvalid hstep hdeep with
      hold | ⟨charged, hcharge, hsame⟩
    · obtain ⟨old, hsome, hdepth⟩ := Option.map_eq_some_iff.mp hold
      rw [← hdepth]
      exact hunrefuted.bound old hsome
    · rw [hsame]
      exact hcharged charged hcharge
  · rcases List.mem_append.mp hfailed with hnew | hold
    · exact hcharged failed (Option.mem_toList.mp hnew)
    · exact hunrefuted.failed failed hold
  · rcases baseline_step hvalid hstep with hle | ⟨charged, hcharge, hle⟩
    · exact hle.trans hunrefuted.baseline
    · have hlt := hcharged charged hcharge
      have hbase := hunrefuted.baseline
      omega
  · obtain ⟨hkept, hmoved⟩ := Bool.or_eq_false_iff.mp hretreated
    obtain ⟨best, hbest, hle⟩ := hunrefuted.best hkept
    rw [hbest] at hmoved
    cases hnew : next.bestOffset with
    | none => simp [movedBack, hnew] at hmoved
    | some new =>
        rw [hnew, movedBack, Bool.eq_false_iff, ne_eq, isMoreAggressive_iff hdir, not_lt] at hmoved
        exact ⟨new, rfl, hle.trans hmoved⟩

/-- A PASS that writes the proven offset writes an unrefuted one. -/
theorem unrefuted_of_proves {offset : Int} (hrespects : (trackOf config next).Respects)
    (hgrounded : (trackOf config next).Grounded (config.depth config.maxOffset))
    (hphase : next.phase = .confirmed) (hbest : next.bestOffset = some offset) :
    Unrefuted config { core := next } offset := by
  have hknown : (trackOf config next).known = config.depth offset := by
    rw [trackOf_known, hbest, Option.getD_some]
  refine ⟨fun bound hbound => ?_, by simp, ?_, fun _ => ⟨offset, hbest, le_rfl⟩⟩
  · have htrusted := hrespects.trusted (by simp [hphase, Track.isTrusted]) (config.depth bound)
      (by simp [trackOf, show next.backoffFailBound = some bound from hbound])
    rw [← hknown]
    exact htrusted.1
  · rw [← hknown]
    exact hgrounded.known

/-! ## Sessions -/

/-- The cores of a session, and its status. -/
structure ReportedSession (Core : Type*) where
  cores : Core → ReportWatch
  status : ReportStatus := .running

inductive ReportEvent (Core : Type*)
  | core (core : Core) (event : CoreEvent)
  /-- A core is charged with a FAIL its search is not told of: a slot of a hunt, or one of
  validation that nothing is backed off for. -/
  | charge (core : Core) (offset : Int)
  /-- The confirmed profile is applied, and the session completed. -/
  | complete
  /-- The session is quarantined, or ends in a platform fault. -/
  | close

/-- A session from `start` on; whatever happens to a core of a closed session re-opens it. -/
def reportSystem (Core : Type*) [DecidableEq Core] [Fintype Core] (config : TunerConfig) :
    StepSystem (ReportedSession Core) (ReportEvent Core) where
  Start session := (∀ core, ∃ cs, (coreSystem config).Start cs ∧ session.cores core = { core := cs }) ∧
    session.status = .running
  step session
    | .core core event =>
        (stepCore config (session.cores core).core event).map fun next =>
          { cores := Function.update session.cores core
              ((session.cores core).after config event next) }
    | .charge core offset =>
        some
          { cores := Function.update session.cores core
              { session.cores core with failed := offset :: (session.cores core).failed } }
    | .complete =>
        if ∀ core, (session.cores core).core.phase = .confirmed then
          some { session with status := .completed }
        else
          none
    | .close => some { session with status := .unreportable }

/-- What the report accepts is unrefuted, and in a completed session not past the best offset;
what it recommends for the BIOS is not past what it accepts. -/
def SoundRow (config : TunerConfig) (watch : ReportWatch) (status : ReportStatus) : Prop :=
  ∀ accepted, (projectCoreRow status config watch.core).acceptedOffset = some accepted →
    (∀ bound, watch.core.backoffFailBound = some bound →
      config.isMoreAggressive bound accepted = true) ∧
    (∀ failed ∈ watch.failed, config.isMoreAggressive failed accepted = true) ∧
    (status = .completed → ∃ best, watch.core.bestOffset = some best ∧
      config.isMoreAggressive accepted best = false) ∧
    ∃ bios, (projectCoreRow status config watch.core).biosOffset = some bios ∧
      config.isMoreAggressive bios accepted = false

/-- A failure lies past whatever the core has proven. -/
def PastProven (config : TunerConfig) (cs : CoreState) (offset : Int) : Prop :=
  ∀ proven, cs.provenOffset = some proven → config.isMoreAggressive offset proven = true

/-- The steps that keep the ground of a core: its first slot is not short of its baseline; a
penalty at stock finds no baseline past stock under a test, and one on the far side of stock
no best offset there; a rollback is not short of the baseline. -/
def KeepsCoreGround (config : TunerConfig) (cs : CoreState) : CoreEvent → Prop
  | .launch => cs.phase = .notStarted → config.depth cs.baselineOffset ≤ firstDepth config cs
  | .penalty resident _ _ =>
      if resident = 0 then
        isStepped cs.phase = true → config.depth cs.baselineOffset ≤ 0
      else
        config.depth resident ≤ config.depth cs.baselineOffset →
          0 < config.depth resident ∨
            ∀ best, cs.bestOffset = some best → 0 ≤ config.depth best
  | .rollback mostAggressivePass =>
      config.depth cs.baselineOffset ≤
        config.depth (mostAggressivePass.getD cs.baselineOffset)
  | _ => True

/-- The steps that keep the report unrefuted: no failure is charged at or short of the proven
offset, no fail bound is brought where the search will not consult it, the ground is kept, and
no session is completed with a best offset moved back since it was proven. -/
def KeepsReport {Core : Type*} (config : TunerConfig) (session : ReportedSession Core) :
    ReportEvent Core → Prop
  | .core core event =>
      KeepsFailures config (session.cores core).core event ∧
        KeepsCoreGround config (session.cores core).core event ∧
          ∀ offset, chargedAt (session.cores core).core event = some offset →
            PastProven config (session.cores core).core offset
  | .charge core offset => PastProven config (session.cores core).core offset
  | .complete => ∀ core, (session.cores core).retreated = false
  | .close => True

/-- The invariant of a core. -/
structure ReportedCore (config : TunerConfig) (watch : ReportWatch) : Prop where
  respects : (trackOf config watch.core).Respects
  grounded : (trackOf config watch.core).Grounded (config.depth config.maxOffset)
  proven : ∀ offset, watch.core.provenOffset = some offset → Unrefuted config watch offset

theorem grounded_step (hvalid : config.Valid) {event : CoreEvent}
    (hrespects : (trackOf config cs).Respects)
    (hgrounded : (trackOf config cs).Grounded (config.depth config.maxOffset))
    (hkeeps : KeepsCoreGround config cs event) (hstep : stepCore config cs event = some next) :
    (trackOf config next).Grounded (config.depth config.maxOffset) := by
  have hdir := hvalid.direction
  have hfine := hvalid.fineStep_pos
  have hmove := stepCore_track hvalid hstep
  cases event with
  | launch =>
      rw [hmove.2]
      split_ifs with hphase
      · have hfirst := hkeeps hphase
        exact ⟨hgrounded.known, fun _ => hfirst, fun _ => hfirst.trans (min_le_right _ _)⟩
      · exact hgrounded.left
  | verdict passed =>
      cases passed with
      | true => exact hgrounded.passed hmove.2
      | false =>
          obtain ⟨-, paused, hfailed⟩ := hmove
          exact hgrounded.failed hrespects.passBound (by omega) hfailed
  | penalty resident steps countCrash =>
      rw [hmove.2]
      refine hgrounded.penalized ?_ (penaltyDepth_lt hvalid hmove.1) fun hstock => ?_
      · simp only [Track.KeepsGround, depth_eq_zero hdir]
        simp only [KeepsCoreGround] at hkeeps
        -- What keeps the ground at stock is not what keeps it elsewhere.
        split_ifs with hzero
        · rw [if_pos hzero] at hkeeps
          exact hkeeps
        · rw [if_neg hzero] at hkeeps
          intro hle
          refine (hkeeps hle).imp_right fun hside best hbest => ?_
          obtain ⟨old, hold, rfl⟩ := Option.map_eq_some_iff.mp hbest
          exact hside old hold
      · have hstep := penaltyStep_pos hvalid hmove.1
        simp only [penaltyDepth]
        omega
  | anneal hours =>
      obtain ⟨-, -, htrack⟩ := hmove
      rw [htrack]
      refine ⟨hgrounded.known, fun _ => ?_, by simp [Track.probing]⟩
      have hknown := hgrounded.known
      show (trackOf config cs).baseline ≤ (trackOf config cs).known + config.fineStep
      omega
  | backOff =>
      rw [hmove.2.2]
      exact ⟨le_max_right _ _, fun _ => le_max_right _ _, hgrounded.cap⟩
  | reengage survived =>
      rw [show trackOf config next = _ from hmove]
      exact hgrounded.pulled _
  | rollback mostAggressivePass =>
      rw [hmove.2]
      exact ⟨hkeeps, fun _ => hkeeps, by simp [Track.rolledBack]⟩
  | revalidate =>
      obtain ⟨-, best, hbest, htrack⟩ := hmove
      have hknown := hgrounded.known
      rw [Track.known, hbest, Option.getD_some] at hknown
      rw [htrack]
      exact ⟨hknown, fun _ => hknown, by simp [Track.reopenedAt]⟩
  | account books =>
      rw [show trackOf config next = _ from hmove]
      exact hgrounded

theorem reported_step (hvalid : config.Valid) {watch : ReportWatch} {event : CoreEvent}
    (hreported : ReportedCore config watch)
    (hfailures : KeepsFailures config watch.core event)
    (hground : KeepsCoreGround config watch.core event)
    (hpast : ∀ offset, chargedAt watch.core event = some offset →
      PastProven config watch.core offset)
    (hstep : stepCore config watch.core event = some next) :
    ReportedCore config (watch.after config event next) := by
  have hcore : (watch.after config event next).core = next := by
    unfold ReportWatch.after
    split <;> rfl
  have hrespects := respects_step hvalid hreported.respects hfailures hstep
  have hgrounded := grounded_step hvalid hreported.respects hreported.grounded hground hstep
  refine ⟨by rwa [hcore], by rwa [hcore], fun offset hproven => ?_⟩
  rw [hcore] at hproven
  cases hwrites : writesProven config watch.core event with
  | true =>
      rw [ReportWatch.after, if_pos hwrites]
      obtain ⟨hphase, hbest⟩ := confirmed_of_writesProven hstep hwrites
      exact unrefuted_of_proves hrespects hgrounded hphase (hbest ▸ hproven)
  | false =>
      rw [stepCore_provenOffset hstep hwrites] at hproven
      refine (hreported.proven offset hproven).step hvalid hstep hwrites fun charged hcharge => ?_
      have haggressive := hpast charged hcharge offset hproven
      rwa [isMoreAggressive_iff hvalid.direction] at haggressive

theorem grounded_start (hvalid : config.Valid) (hstart : (coreSystem config).Start cs) :
    (trackOf config cs).Grounded (config.depth config.maxOffset) := by
  obtain ⟨coreId, seed, readBack, rfl⟩ := hstart
  obtain ⟨track, htrack, hbest, -, -, hphase⟩ := startCore_track hvalid coreId seed readBack
  have hknown : track.known = track.baseline := by rw [Track.known, hbest, Option.getD_none]
  rw [htrack]
  rcases hphase with hphase | ⟨hphase, hlt, hcap, -⟩
  · exact ⟨hknown.ge, by simp [hphase, isStepped], by simp [hphase]⟩
  · exact ⟨hknown.ge, fun _ => hlt.le, fun _ => hcap⟩

section Runs

variable {Core : Type*} {session after : ReportedSession Core}

/-- The invariant of a session. -/
structure Reported (config : TunerConfig) (session : ReportedSession Core) : Prop where
  cores : ∀ core, ReportedCore config (session.cores core)
  completed : session.status = .completed → ∀ core, (session.cores core).retreated = false

theorem reported_update [DecidableEq Core] (hreported : Reported config session) {core : Core}
    {watch : ReportWatch} (hwatch : ReportedCore config watch) :
    Reported config { cores := Function.update session.cores core watch } where
  cores := by
    intro other
    show ReportedCore config (Function.update session.cores core watch other)
    by_cases hsame : other = core
    · rw [hsame, Function.update_self]
      exact hwatch
    · rw [Function.update_of_ne hsame]
      exact hreported.cores other
  completed := by simp

theorem Reported.step [DecidableEq Core] [Fintype Core] (hvalid : config.Valid)
    {event : ReportEvent Core} (hreported : Reported config session)
    (hkeeps : KeepsReport config session event)
    (hstep : (reportSystem Core config).step session event = some after) :
    Reported config after := by
  cases event with
  | core core event =>
      obtain ⟨next, hnext, rfl⟩ := Option.map_eq_some_iff.mp hstep
      obtain ⟨hfailures, hground, hpast⟩ := hkeeps
      exact reported_update hreported
        (reported_step hvalid (hreported.cores core) hfailures hground hpast hnext)
  | charge core offset =>
      cases Option.some.inj hstep
      obtain ⟨hrespects, hgrounded, hproven⟩ := hreported.cores core
      refine reported_update hreported ⟨hrespects, hgrounded, fun proven hsome => ?_⟩
      obtain ⟨hbound, hfailed, hbase, hbest⟩ := hproven proven hsome
      refine ⟨hbound, ?_, hbase, hbest⟩
      rintro failed (_ | ⟨_, hmem⟩)
      · have hpast := hkeeps proven hsome
        rwa [isMoreAggressive_iff hvalid.direction] at hpast
      · exact hfailed failed hmem
  | complete =>
      cases Option.some.inj (Option.ite_none_right_eq_some.mp hstep).2
      exact ⟨hreported.cores, fun _ => hkeeps⟩
  | close =>
      cases Option.some.inj hstep
      exact ⟨hreported.cores, by simp⟩

theorem reported_start [DecidableEq Core] [Fintype Core] (hvalid : config.Valid)
    (hstart : (reportSystem Core config).Start session) : Reported config session := by
  obtain ⟨hcores, hstatus⟩ := hstart
  refine ⟨fun core => ?_, by simp [hstatus]⟩
  obtain ⟨cs, hcs, hcore⟩ := hcores core
  rw [hcore]
  refine ⟨respects_start hvalid hcs, grounded_start hvalid hcs, fun offset hproven => ?_⟩
  obtain ⟨coreId, seed, readBack, rfl⟩ := hcs
  simp only [startCore] at hproven
  split at hproven <;> cases hproven

end Runs

theorem soundRow_of_reported (hvalid : config.Valid) {watch : ReportWatch} {status : ReportStatus}
    (hreported : ReportedCore config watch)
    (hcompleted : status = .completed → watch.retreated = false) :
    SoundRow config watch status := by
  have hdir := hvalid.direction
  intro accepted haccepted
  have hproven : watch.core.provenOffset = some accepted := by
    simp only [projectCoreRow] at haccepted
    split at haccepted
    · cases haccepted
    · exact haccepted
  obtain ⟨hbound, hfailed, hbase, hbest⟩ := hreported.proven accepted hproven
  refine ⟨fun bound hsome => ?_, fun failed hmem => ?_, fun hstatus => ?_, ?_⟩
  · rw [isMoreAggressive_iff hdir]
    exact hbound bound hsome
  · rw [isMoreAggressive_iff hdir]
    exact hfailed failed hmem
  · obtain ⟨best, hsome, hle⟩ := hbest (hcompleted hstatus)
    refine ⟨best, hsome, ?_⟩
    rw [Bool.eq_false_iff, ne_eq, isMoreAggressive_iff hdir]
    exact not_lt.mpr hle
  · simp only [projectCoreRow] at haccepted ⊢
    rw [haccepted]
    refine ⟨_, rfl, ?_⟩
    rw [Bool.eq_false_iff, ne_eq, isMoreAggressive_iff hdir]
    exact not_lt.mpr (biosOffset_depth_le hvalid hbase)

/-- **The report recommends only unrefuted offsets** in sessions whose steps keep it so. -/
theorem report_recommends_unrefuted (Core : Type*) [DecidableEq Core] [Fintype Core] (hvalid : config.Valid)
    {session : ReportedSession Core}
    (hreach : (reportSystem Core config).ReachableBy (KeepsReport config) session) (core : Core) :
    SoundRow config (session.cores core) session.status := by
  have hreported : Reported config session :=
    hreach.invariant (fun _ hstart => reported_start hvalid hstart)
      (fun _ _ _ hinv hkeeps hstep => Reported.step hvalid hinv hkeeps hstep)
  exact soundRow_of_reported hvalid (hreported.cores core)
    fun hstatus => hreported.completed hstatus core

/-- Both cores of a default session confirmed at -5, a validation slot of the first that fails
and backs it off, and the session completed. -/
def backedOffEvents : List (ReportEvent Bool) :=
  [false, true].flatMap (fun core =>
    [.core core .launch, .core core (.verdict true), .core core (.verdict false),
      .core core (.verdict false), .core core .launch, .core core (.verdict true)]) ++
    [.core false .backOff, .complete]

/-- The completed session recommends -5, where the slot failed; the core is validated at -4. -/
theorem report_keeps_refuted :
    ∃ session : ReportedSession Bool, (reportSystem Bool {}).Reachable session ∧
      session.status = .completed ∧
      (projectCoreRow session.status {} (session.cores false).core).acceptedOffset = some (-5) ∧
      (session.cores false).core.bestOffset = some (-4) ∧ (session.cores false).failed = [-5] ∧
      ¬ SoundRow {} (session.cores false) session.status := by
  have hstart : (reportSystem Bool {}).Start
      { cores := fun _ => { core := startCore {} 0 none none } } :=
    ⟨fun _ => ⟨_, ⟨0, none, none, rfl⟩, rfl⟩, rfl⟩
  obtain ⟨session, hreach, hview⟩ := StepSystem.exists_reachable
    (fun session : ReportedSession Bool => (session.status,
      (projectCoreRow session.status {} (session.cores false).core).acceptedOffset,
      (session.cores false).core.bestOffset, (session.cores false).failed))
    (.completed, some (-5), some (-4), [-5]) backedOffEvents hstart (by decide +kernel)
  simp only [Prod.mk.injEq] at hview
  obtain ⟨hstatus, haccepted, hbest, hfailed⟩ := hview
  refine ⟨session, hreach, hstatus, haccepted, hbest, hfailed, fun hsound => ?_⟩
  have hrefuted := (hsound (-5) haccepted).2.1 (-5) (by simp [hfailed])
  revert hrefuted
  decide

/-- A seeded core fails at -2, and is confirmed at -1. -/
theorem report_recommends_unrefuted_seeded :
    ∃ session : ReportedSession Unit,
      (reportSystem Unit {}).ReachableBy (KeepsReport {}) session ∧
        (projectCoreRow session.status {} (session.cores ()).core).acceptedOffset = some (-1) ∧
        SoundRow {} (session.cores ()) session.status := by
  have hrun : ((reportSystem Unit {}).runEvents
      { cores := fun _ => { core := startCore {} 0 (some (-2)) none } }
      [.core () (.verdict false), .core () (.verdict true), .core () (.verdict true)]).map
        (fun session => (projectCoreRow session.status {} (session.cores ()).core).acceptedOffset) =
      some (some (-1)) := by decide +kernel
  obtain ⟨session, hsession, haccepted⟩ := Option.map_eq_some_iff.mp hrun
  have hreach : (reportSystem Unit {}).ReachableBy (KeepsReport {}) session := by
    refine StepSystem.ReachableBy.allowedRun
      (.start ⟨fun _ => ⟨_, ⟨0, some (-2), none, rfl⟩, rfl⟩, rfl⟩) ?_ hsession
    refine ⟨⟨trivial, trivial, fun _ _ proven hproven => by cases hproven⟩, fun _ _ =>
      ⟨⟨trivial, trivial, by simp [chargedAt]⟩, fun _ _ =>
        ⟨⟨trivial, trivial, by simp [chargedAt]⟩, fun _ _ => trivial⟩⟩⟩
  exact ⟨session, hreach, haccepted, report_recommends_unrefuted Unit (by decide +kernel) hreach ()⟩

end Tuner
end CoreCycler
