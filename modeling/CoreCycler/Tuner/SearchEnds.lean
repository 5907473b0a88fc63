import CoreCycler.Library.Descent
import CoreCycler.Tuner.BackoffBounds

/-!
# The search of a core ends

Whatever the slots answer, a core is confirmed or the session pauses after finitely many
verdicts.  Before a back-off the phases only move forward, and the retries and the room to the
cap bound each of them.  A back-off moves both ways, but a failure short of the fail bound
lowers the bound for good, and between two such failures the core comes closer to the bound
from below or leaves it from above: `Track.backoffLeft` is that measure.
-/

namespace CoreCycler
namespace Tuner

open Library TunerConfig

/-- Work left in a search, in decreasing weight. -/
abbrev SearchLeft := ℕ ×ₗ ℕ∞ ×ₗ ℕ∞ ×ₗ ℕ ×ₗ ℕ

/-- Work left, component by component. -/
def searchLeft (stage : ℕ) (room past : ℕ∞) (gap step : ℕ) : SearchLeft :=
  toLex (stage, toLex (room, toLex (past, toLex (gap, step))))

theorem searchLeft_lt_of_stage {stage stage' : ℕ} {room room' past past' : ℕ∞}
    {gap gap' step step' : ℕ} (hlt : stage' < stage) :
    searchLeft stage' room' past' gap' step' < searchLeft stage room past gap step :=
  Prod.Lex.toLex_lt_toLex.mpr (.inl hlt)

theorem searchLeft_lt_of_room {stage : ℕ} {room room' past past' : ℕ∞}
    {gap gap' step step' : ℕ} (hlt : room' < room) :
    searchLeft stage room' past' gap' step' < searchLeft stage room past gap step :=
  Prod.Lex.toLex_lt_toLex.mpr (.inr ⟨rfl, Prod.Lex.toLex_lt_toLex.mpr (.inl hlt)⟩)

theorem searchLeft_lt_of_past {stage : ℕ} {room past past' : ℕ∞}
    {gap gap' step step' : ℕ} (hlt : past' < past) :
    searchLeft stage room past' gap' step' < searchLeft stage room past gap step :=
  Prod.Lex.toLex_lt_toLex.mpr (.inr ⟨rfl, Prod.Lex.toLex_lt_toLex.mpr (.inr ⟨rfl,
    Prod.Lex.toLex_lt_toLex.mpr (.inl hlt)⟩)⟩)

theorem searchLeft_lt_of_gap {stage : ℕ} {room past : ℕ∞} {gap gap' step step' : ℕ}
    (hlt : gap' < gap) :
    searchLeft stage room past gap' step' < searchLeft stage room past gap step :=
  Prod.Lex.toLex_lt_toLex.mpr (.inr ⟨rfl, Prod.Lex.toLex_lt_toLex.mpr (.inr ⟨rfl,
    Prod.Lex.toLex_lt_toLex.mpr (.inr ⟨rfl, Prod.Lex.toLex_lt_toLex.mpr (.inl hlt)⟩)⟩)⟩)

theorem searchLeft_lt_of_step {stage : ℕ} {room past : ℕ∞} {gap step step' : ℕ}
    (hlt : step' < step) :
    searchLeft stage room past gap step' < searchLeft stage room past gap step :=
  Prod.Lex.toLex_lt_toLex.mpr (.inr ⟨rfl, Prod.Lex.toLex_lt_toLex.mpr (.inr ⟨rfl,
    Prod.Lex.toLex_lt_toLex.mpr (.inr ⟨rfl, Prod.Lex.toLex_lt_toLex.mpr (.inr ⟨rfl,
      hlt⟩)⟩)⟩)⟩)

/-- How far a phase is from the end of its search. -/
def stageLeft : TunerPhase → ℕ
  | .notStarted => 8
  | .coarseSearch => 7
  | .fineSearch => 6
  | .settled => 5
  | .confirming => 4
  | .failedConfirm => 3
  | .annealing => 2
  | .backoffPreconfirm => 1
  | .backoffConfirming => 1
  | .confirmed => 0

namespace Track

/-- How far the fail bound may still come down; no bound yet leaves most. -/
def failRoom (track : Track) : ℕ∞ :=
  match track.failBound with
  | none => ⊤
  | some bound => ((bound - track.baseline).toNat : ℕ)

/-- How far at or past the fail bound a back-off stands; a confirmation there may go
anywhere. -/
def pastFail (track : Track) : ℕ∞ :=
  match track.failBound with
  | none => 0
  | some bound =>
      if track.current < bound then 0
      else if track.phase = .backoffConfirming then ⊤
      else ((track.current - bound).toNat + 1 : ℕ)

/-- How far short of the fail bound a back-off stands. -/
def gapLeft (track : Track) : ℕ :=
  match track.failBound with
  | none => 0
  | some bound => (bound - track.current).toNat

/-- Work left in a back-off. -/
def backoffLeft (track : Track) : SearchLeft :=
  searchLeft 1 track.failRoom track.pastFail track.gapLeft
    (if track.phase = .backoffPreconfirm then 1 else 0)

variable {fine cap : Int} {before after : Track}

theorem pastFail_eq_zero {bound : Int} (hbound : after.failBound = some bound)
    (hlt : after.current < bound) : after.pastFail = 0 := by
  simp [pastFail, hbound, hlt]

theorem pastFail_pos {bound : Int} (hbound : before.failBound = some bound)
    (hle : bound ≤ before.current) : 0 < before.pastFail := by
  simp only [pastFail, hbound, if_neg (not_lt.mpr hle)]
  split_ifs
  · exact ENat.top_pos
  · exact_mod_cast Nat.succ_pos _

theorem pastFail_lt_top {bound : Int} (hbound : after.failBound = some bound)
    (hphase : after.phase = .backoffPreconfirm) : after.pastFail < ⊤ := by
  have hconfirming : after.phase ≠ .backoffConfirming := by simp [hphase]
  simp only [pastFail, hbound, if_neg hconfirming]
  split_ifs
  · exact ENat.top_pos
  · exact ENat.natCast_lt_top _

/-- A step back from past the fail bound. -/
theorem pastFail_lt {bound : Int} (hfail : before.failBound = some bound)
    (hafter : after.failBound = some bound) (hle : bound ≤ before.current)
    (hphase : after.phase = .backoffPreconfirm) (hlt : after.current < before.current) :
    after.pastFail < before.pastFail := by
  by_cases hshort : after.current < bound
  · rw [pastFail_eq_zero hafter hshort]
    exact pastFail_pos hfail hle
  · have hconfirming : after.phase ≠ .backoffConfirming := by simp [hphase]
    simp only [pastFail, hfail, hafter, if_neg hshort, if_neg (not_lt.mpr hle),
      if_neg hconfirming]
    split_ifs
    · exact ENat.natCast_lt_top _
    · rw [Nat.cast_lt]
      omega

/-- A failure short of the fail bound brings the bound down. -/
theorem failRoom_lt (hground : before.baseline < before.current) (hshort : before.Short)
    (hbound : after.failBound = some (before.failedAt before.current))
    (hbase : after.baseline = before.baseline) : after.failRoom < before.failRoom := by
  cases hfail : before.failBound with
  | none =>
      simp only [failRoom, hbound, hfail]
      exact ENat.natCast_lt_top _
  | some bound =>
      have hlt := hshort bound hfail
      have hfailed : before.failedAt before.current = before.current := by
        simp [failedAt, hfail, hlt.le]
      simp only [failRoom, hbound, hfail, hbase, hfailed, Nat.cast_lt]
      omega

/-- A failure at or past the fail bound leaves the bound. -/
theorem failedAt_eq {bound : Int} (hfail : before.failBound = some bound)
    (hle : bound ≤ before.current) : before.failedAt before.current = bound := by
  simp [failedAt, hfail, hle]

/-- What a failure of a back-off has to do at or past the fail bound. -/
theorem backoffLeft_lt (hground : before.baseline < before.current)
    (hbound : after.failBound = some (before.failedAt before.current))
    (hbase : after.baseline = before.baseline)
    (hpast : ∀ bound, before.failBound = some bound → bound ≤ before.current →
      after.failBound = some bound → after.pastFail < before.pastFail) :
    after.backoffLeft < before.backoffLeft := by
  by_cases hshort : before.Short
  · exact searchLeft_lt_of_room (failRoom_lt hground hshort hbound hbase)
  · obtain ⟨bound, hfail, hle⟩ : ∃ bound, before.failBound = some bound ∧
        bound ≤ before.current := by
      simpa [Short] using hshort
    rw [failedAt_eq hfail hle] at hbound
    have hroom : after.failRoom = before.failRoom := by
      simp only [failRoom, hfail, hbound, hbase]
    rw [backoffLeft, backoffLeft, hroom]
    exact searchLeft_lt_of_past (hpast bound hfail hle hbound)

/-- A back-off that fails off its baseline has less left. -/
theorem backoffLeft_failed (hfine : 1 ≤ fine) (hbracketed : before.Bracketed)
    (hbackoff : isBackoff before.phase = true)
    (hfailed : Failed fine cap before false after) :
    isBackoff after.phase = true ∧ after.backoffLeft < before.backoffLeft := by
  -- The pass bound that survives the failure lies short of the fail bound.
  have hlanded {passed bound : Int}
      (hpass : (before.tightened before.current).passBound = some passed)
      (hfail : before.failBound = some bound) (hle : bound ≤ before.current) :
      passed < bound := by
    rw [← failedAt_eq hfail hle]
    exact hbracketed.tightened hpass
  cases hfailed with
  | first hphase _ => simp [hphase, isBackoff] at hbackoff
  | probed hphase _ _ => simp [hphase, isBackoff] at hbackoff
  | bracketed hphase _ => simp [hphase, isBackoff] at hbackoff
  | searched hphase => simp [hphase, isBackoff] at hbackoff
  | retried hphase _ => simp [hphase, isBackoff] at hbackoff
  | givenUp hphase _ => simp [hphase, isBackoff] at hbackoff
  | annealFailed hphase => simp [hphase, isBackoff] at hbackoff
  | returned hphase hground hpass =>
      refine ⟨by simp [isBackoff], backoffLeft_lt hground rfl rfl fun bound hfail hle hafter => ?_⟩
      rw [pastFail_eq_zero hafter (hlanded hpass hfail hle)]
      exact pastFail_pos hfail hle
  | bisected hphase hground hpass =>
      refine ⟨hbackoff, backoffLeft_lt hground rfl rfl fun bound hfail hle hafter => ?_⟩
      have hlt := hlanded hpass hfail hle
      rw [pastFail_eq_zero hafter]
      · exact pastFail_pos hfail hle
      · show _ + |before.failedAt before.current - _| / 2 < bound
        rw [failedAt_eq hfail hle, abs_of_pos (sub_pos.mpr hlt)]
        omega
  | steppedBack hphase hground hstep =>
      refine ⟨hbackoff, backoffLeft_lt hground rfl rfl fun bound hfail hle hafter => ?_⟩
      refine pastFail_lt hfail hafter hle hphase ?_
      exact max_lt (by omega) hground
  | floored hphase hground hpass =>
      refine ⟨hbackoff, backoffLeft_lt hground rfl rfl fun bound hfail hle hafter => ?_⟩
      rw [pastFail_eq_zero hafter (hlanded hpass hfail hle)]
      exact pastFail_pos hfail hle
  | reopened hphase hground =>
      refine ⟨by simp [isBackoff], backoffLeft_lt hground rfl rfl fun bound hfail hle hafter => ?_⟩
      have htop : before.pastFail = ⊤ := by
        simp [pastFail, hfail, not_lt.mpr hle, hphase]
      rw [htop]
      exact pastFail_lt_top hafter rfl

/-- What bounds the slots of a phase before the back-off. -/
def phaseRoom (cap : Int) (retries : ℕ) (track : Track) : ℕ :=
  match track.phase with
  | .coarseSearch | .fineSearch => (cap - track.current).toNat
  | .confirming => retries
  | _ => 0

/-- Work left in a search with `retries` confirmations to go. -/
def workLeft (cap : Int) (retries : ℕ) (track : Track) : SearchLeft :=
  if isBackoff track.phase then track.backoffLeft
  else searchLeft (stageLeft track.phase) (track.phaseRoom cap retries) 0 0 0

variable {retries retries' : ℕ}

theorem workLeft_backoff (hbackoff : isBackoff before.phase = true) :
    before.workLeft cap retries = before.backoffLeft := by
  rw [workLeft, if_pos hbackoff]

/-- Whatever a phase still has to do weighs less than the phase. -/
theorem workLeft_stage (track : Track) : ∃ room past gap step,
    track.workLeft cap retries = searchLeft (stageLeft track.phase) room past gap step := by
  rw [workLeft]
  split_ifs with hbackoff
  · have hone : stageLeft track.phase = 1 := by
      rcases isBackoff_iff.mp hbackoff with hphase | hphase <;> rw [hphase] <;> rfl
    exact ⟨_, _, _, _, by rw [hone]; rfl⟩
  · exact ⟨_, _, _, _, rfl⟩

theorem workLeft_lt_of_stage (hlt : stageLeft after.phase < stageLeft before.phase) :
    after.workLeft cap retries' < before.workLeft cap retries := by
  obtain ⟨room, past, gap, step, hbefore⟩ := workLeft_stage before
  obtain ⟨room', past', gap', step', hafter⟩ := workLeft_stage after
  rw [hbefore, hafter]
  exact searchLeft_lt_of_stage hlt

theorem workLeft_lt_of_room (hphase : after.phase = before.phase)
    (hbackoff : isBackoff before.phase = false)
    (hlt : after.phaseRoom cap retries' < before.phaseRoom cap retries) :
    after.workLeft cap retries' < before.workLeft cap retries := by
  rw [workLeft, workLeft, hphase, hbackoff, if_neg Bool.false_ne_true, if_neg Bool.false_ne_true]
  exact searchLeft_lt_of_room (Nat.cast_lt.mpr hlt)

/-- A PASS before the back-off goes deeper within the cap, or moves on. -/
theorem workLeft_passed (hbackoff : isBackoff before.phase = false)
    (hpassed : Passed fine cap before after) :
    after.workLeft cap retries' < before.workLeft cap retries := by
  cases hpassed with
  | @deeper next hphase hlt hcap =>
      refine workLeft_lt_of_room rfl hbackoff ?_
      rcases hphase with hphase | hphase <;>
        · simp only [phaseRoom, hphase]
          omega
  | searched hphase =>
      refine workLeft_lt_of_stage ?_
      rcases hphase with hphase | hphase <;> simp [hphase, stageLeft]
  | confirmed hphase => exact workLeft_lt_of_stage (by simp [hphase, stageLeft])
  | annealed hphase _ => exact workLeft_lt_of_stage (by simp [hphase, stageLeft])
  | annealRefused hphase => exact workLeft_lt_of_stage (by simp [hphase, stageLeft])
  | grounded hphase => cases hbackoff.symm.trans hphase
  | contradicted hphase _ _ => cases hbackoff.symm.trans hphase
  | preconfirmed hphase _ => simp [hphase, isBackoff] at hbackoff
  | backoffConfirmed hphase _ => simp [hphase, isBackoff] at hbackoff
  | bisected hphase _ _ _ => cases hbackoff.symm.trans hphase

/-- A FAIL moves on from every phase but a confirmation, or leaves less of a back-off. -/
theorem workLeft_failed (hfine : 1 ≤ fine) (hbracketed : before.Bracketed)
    (hconfirming : before.phase ≠ .confirming) (hfailed : Failed fine cap before false after) :
    after.workLeft cap retries' < before.workLeft cap retries := by
  by_cases hbackoff : isBackoff before.phase = true
  · obtain ⟨hafter, hlt⟩ := backoffLeft_failed hfine hbracketed hbackoff hfailed
    rwa [workLeft_backoff hbackoff, workLeft_backoff hafter]
  · refine workLeft_lt_of_stage ?_
    rw [Bool.not_eq_true] at hbackoff
    cases hfailed with
    | first hphase _ => simp [hphase, stageLeft]
    | probed hphase _ _ => simp [hphase, stageLeft]
    | bracketed hphase _ => simp [hphase, stageLeft]
    | searched hphase => simp [hphase, stageLeft]
    | retried hphase _ => exact absurd hphase hconfirming
    | givenUp hphase _ => exact absurd hphase hconfirming
    | annealFailed hphase => simp [hphase, stageLeft]
    | returned hphase _ _ => simp [hphase, isBackoff] at hbackoff
    | bisected hphase _ _ => simp [hphase, isBackoff] at hbackoff
    | steppedBack hphase _ _ => simp [hphase, isBackoff] at hbackoff
    | floored hphase _ _ => simp [hphase, isBackoff] at hbackoff
    | reopened hphase _ => simp [hphase, isBackoff] at hbackoff

/-- A PASS of a back-off that leaves its bounds alone comes closer to the fail bound, or
moves on to confirm the offset. -/
theorem backoffLeft_passed (hshort : before.Short)
    (hbound : after.failBound = before.failBound) (hbase : after.baseline = before.baseline)
    (hcloser : (∃ bound, before.failBound = some bound ∧ before.current < after.current ∧
        after.current < bound) ∨
      before.phase = .backoffPreconfirm ∧ after.phase = .backoffConfirming ∧
        after.current = before.current) : after.backoffLeft < before.backoffLeft := by
  have hroom : after.failRoom = before.failRoom := by
    simp only [failRoom, hbound, hbase]
  have hpast : before.pastFail = 0 := by
    cases hfail : before.failBound with
    | none => simp [pastFail, hfail]
    | some bound => exact pastFail_eq_zero hfail (hshort bound hfail)
  rw [backoffLeft, backoffLeft, hroom, hpast]
  rcases hcloser with ⟨bound, hfail, hlt, hmid⟩ | ⟨hpre, hconfirm, hcurrent⟩
  · rw [pastFail_eq_zero (hbound.trans hfail) hmid]
    refine searchLeft_lt_of_gap ?_
    simp only [gapLeft, hbound, hfail]
    omega
  · have hgap : after.gapLeft = before.gapLeft := by
      simp only [gapLeft, hbound, hcurrent]
    have hzero : after.pastFail = 0 := by
      cases hfail : before.failBound with
      | none => simp [pastFail, hbound, hfail]
      | some bound => exact pastFail_eq_zero (hbound.trans hfail) (hcurrent ▸ hshort bound hfail)
    rw [hgap, hzero, if_pos hpre, if_neg (by simp [hconfirm])]
    exact searchLeft_lt_of_step Nat.zero_lt_one

/-- A PASS at or past the fail bound goes back short of it. -/
theorem backoffLeft_contradicted {bound : Int} (hfail : before.failBound = some bound)
    (hle : bound ≤ before.current) (hbound : after.failBound = before.failBound)
    (hbase : after.baseline = before.baseline) (hlt : after.current < bound) :
    after.backoffLeft < before.backoffLeft := by
  have hroom : after.failRoom = before.failRoom := by
    simp only [failRoom, hbound, hbase]
  rw [backoffLeft, backoffLeft, hroom, pastFail_eq_zero (hbound.trans hfail) hlt]
  exact searchLeft_lt_of_past (pastFail_pos hfail hle)

end Track

variable {config : TunerConfig} {cs : CoreState}

/-- Work left in the search of a core. -/
def coreLeft (config : TunerConfig) (cs : CoreState) : SearchLeft :=
  (trackOf config cs).workLeft (config.depth config.maxOffset)
    (config.maxConfirmRetries - cs.confirmAttempts).toNat

theorem coreLeft_lt_of_backoff {next : CoreState} (hbefore : isBackoff cs.phase = true)
    (hafter : isBackoff next.phase = true)
    (hlt : (trackOf config next).backoffLeft < (trackOf config cs).backoffLeft) :
    coreLeft config next < coreLeft config cs := by
  rwa [coreLeft, coreLeft, Track.workLeft_backoff hafter, Track.workLeft_backoff hbefore]

/-- The verdict confirms the core, or pauses the session. -/
def Stops (config : TunerConfig) (cs : CoreState) (passed : Bool) : Prop :=
  cs.phase = .confirmed ∨ (advanceCore config cs passed).paused = true

/-- A baseline at or past the fail bound pauses the session. -/
theorem contradictory_paused (hvalid : config.Valid) {bound : Int} {outcome : Outcome}
    (hsome : handleContradictoryPass config cs = some outcome)
    (hfail : cs.backoffFailBound = some bound)
    (hle : config.depth bound ≤ config.depth cs.baselineOffset) : outcome.paused = true := by
  have hdir := hvalid.direction
  have hfine := hvalid.fineStep_pos
  simp only [handleContradictoryPass, hfail, isMoreAggressive_iff hdir, atOrPastBaseline,
    atOrPast_iff hdir, depth_sub hdir] at hsome
  split_ifs at hsome with hshort hfloor
  · rw [← Option.some.inj hsome]
    exact (atOrPast_iff hdir).mpr hle
  · omega

theorem coreLeft_contradicted (hvalid : config.Valid) (hbackoff : isBackoff cs.phase = true)
    {outcome : Outcome}
    (hsome : handleContradictoryPass config (backoffKnown cs) = some outcome)
    (hgoing : outcome.paused = false) : coreLeft config outcome.core < coreLeft config cs := by
  have hfine := hvalid.fineStep_pos
  obtain ⟨bound, hfail, hle, hmoved⟩ := handleContradictoryPass_eq_some hvalid.direction hsome
  have hfail' : (trackOf config cs).failBound = some (config.depth bound) := by
    simp [trackOf, show cs.backoffFailBound = some bound from hfail]
  obtain ⟨-, hcore⟩ | ⟨back, best, hback, -, -, hcore⟩ := hmoved
  · rw [hcore]
    refine coreLeft_lt_of_backoff hbackoff (by simp [isBackoff])
      (Track.backoffLeft_contradicted hfail' hle rfl rfl ?_)
    have hclear : ¬ config.depth bound ≤ config.depth cs.baselineOffset := by
      intro hunder
      cases hgoing.symm.trans (contradictory_paused hvalid hsome hfail hunder)
    exact not_le.mp hclear
  · rw [hcore]
    refine coreLeft_lt_of_backoff hbackoff (by simp [isBackoff])
      (Track.backoffLeft_contradicted hfail' hle rfl rfl ?_)
    show config.depth back < config.depth bound
    omega

theorem coreLeft_backoff_passed (hvalid : config.Valid) (hbackoff : isBackoff cs.phase = true)
    (hgoing : (advanceCore config cs true).paused = false) :
    coreLeft config (advanceCore config cs true).core < coreLeft config cs := by
  have hdir := hvalid.direction
  rcases advanceCore_backoff_pass hdir hbackoff with
    ⟨outcome, hcontra, hadvance⟩ | ⟨hshort, proven, hadvance⟩
  · rw [hadvance] at hgoing ⊢
    exact coreLeft_contradicted hvalid hbackoff hcontra hgoing
  · have hshort' : (trackOf config cs).Short := trackOf_short.mpr hshort
    rw [hadvance]
    rcases isBackoff_iff.mp hbackoff with hphase | hphase
    · have hstep : backoffStepOf config (backoffKnown cs) true =
          preconfirmPass config (backoffKnown cs) := by
        simp [backoffStepOf, backoffKnown, hphase]
      rw [hstep]
      rcases preconfirmPass_cases hvalid (backoffKnown cs) hshort with
        ⟨attempts, hconfirm⟩ | ⟨mid, bound, hbound, hlt, hmid, hprobe⟩
      · rw [hconfirm]
        exact coreLeft_lt_of_backoff hbackoff (by simp [isBackoff])
          (Track.backoffLeft_passed hshort' rfl rfl (.inr ⟨hphase, rfl, rfl⟩))
      · rw [hprobe]
        exact coreLeft_lt_of_backoff hbackoff hbackoff
          (Track.backoffLeft_passed hshort' rfl rfl
            (.inl ⟨config.depth bound, congrArg (Option.map config.depth) hbound, hlt, hmid⟩))
    · have hstep : backoffStepOf config (backoffKnown cs) true =
          backoffConfirmPass config (backoffKnown cs) := by
        simp [backoffStepOf, backoffKnown, hphase]
      rw [hstep]
      rcases backoffConfirmPass_cases hvalid (backoffKnown cs) hshort with
        hconfirm | ⟨mid, bound, hbound, hlt, hmid, hprobe⟩
      · rw [hconfirm]
        exact Track.workLeft_lt_of_stage (by simp [hphase, stageLeft])
      · rw [hprobe]
        exact coreLeft_lt_of_backoff hbackoff (by simp [isBackoff])
          (Track.backoffLeft_passed hshort' rfl rfl
            (.inl ⟨config.depth bound, congrArg (Option.map config.depth) hbound, hlt, hmid⟩))

theorem advanceCore_confirming_retry (hdir : Directed.IsDirection config.direction)
    (hphase : cs.phase = .confirming)
    (hlt : config.depth cs.baselineOffset < config.depth cs.currentOffset) :
    advanceCore config cs false = { core := advanceConfirming config cs false } := by
  have habsorb : absorbVerdict config cs false = cs := by
    simp [absorbVerdict, normalizeBest, hphase, isBackoff]
  have hguard : baselineFailed config cs false = false := by
    rw [← Bool.not_eq_true]
    simp [baselineFailed, hphase, atOrPastBaseline, atOrPast_iff hdir, hlt]
  rw [advanceCore, if_neg (by simp [hphase])]
  simp only [habsorb, hguard, Bool.false_and, Bool.false_eq_true, if_false, recordProven_false,
    advancePhase, hphase]

/-- A confirmation that is tried again has a retry less. -/
theorem coreLeft_confirming_failed (hvalid : config.Valid) (hphase : cs.phase = .confirming)
    (hgoing : (advanceCore config cs false).paused = false) :
    coreLeft config (advanceCore config cs false).core < coreLeft config cs := by
  have hdir := hvalid.direction
  rcases advanceCore_confirming_fail hdir hphase with ⟨-, hpause⟩ | ⟨hlt, -⟩
  · simp [hpause] at hgoing
  · rw [advanceCore_confirming_retry hdir hphase hlt]
    simp only [advanceConfirming, Bool.false_eq_true, if_false]
    split_ifs with hspent
    · exact Track.workLeft_lt_of_stage (by simp [hphase, stageLeft])
    · refine Track.workLeft_lt_of_room rfl (by simp [hphase, isBackoff]) ?_
      simp only [Track.phaseRoom, trackOf_phase, hphase]
      omega

/-- **One verdict leaves less to search**, unless it stops the search. -/
theorem coreLeft_lower (hvalid : config.Valid) (hbracketed : (trackOf config cs).Bracketed)
    {passed : Bool} (hgoing : ¬ Stops config cs passed) :
    coreLeft config (advanceCore config cs passed).core < coreLeft config cs := by
  rw [Stops, not_or, Bool.not_eq_true] at hgoing
  obtain ⟨hunconfirmed, hgoing⟩ := hgoing
  have hstepped_left (hstepped : isStepped cs.phase = true) :
      coreLeft config (advanceCore config cs passed).core < coreLeft config cs := by
    cases passed with
    | true =>
        by_cases hbackoff : isBackoff cs.phase = true
        · exact coreLeft_backoff_passed hvalid hbackoff hgoing
        · exact Track.workLeft_passed (Bool.not_eq_true _ ▸ hbackoff)
            (advanceCore_passed hvalid hstepped)
    | false =>
        by_cases hconfirming : cs.phase = .confirming
        · exact coreLeft_confirming_failed hvalid hconfirming hgoing
        · obtain ⟨paused, hfailed, hpaused⟩ := advanceCore_failed hvalid hstepped
          cases paused with
          | true => cases hgoing.symm.trans (hpaused rfl)
          | false =>
              exact Track.workLeft_failed hvalid.fineStep_pos hbracketed hconfirming hfailed
  -- Phases without a test of their own move to a later stage.
  have hunguarded (hannealing : cs.phase ≠ .annealing) (hconfirming : cs.phase ≠ .confirming)
      (hbackoff : isBackoff cs.phase = false)
      (hlt : stageLeft (advancePhase config cs passed).core.phase < stageLeft cs.phase) :
      coreLeft config (advanceCore config cs passed).core < coreLeft config cs := by
    obtain ⟨proven, hadvance⟩ :=
      advanceCore_unguarded config cs hannealing hconfirming hbackoff passed
    rw [hadvance]
    exact Track.workLeft_lt_of_stage hlt
  cases hphase : cs.phase with
  | notStarted =>
      refine hunguarded (by simp [hphase]) (by simp [hphase]) (by simp [hphase, isBackoff]) ?_
      simp [advancePhase, hphase, advanceNotStarted, stageLeft]
  | settled =>
      refine hunguarded (by simp [hphase]) (by simp [hphase]) (by simp [hphase, isBackoff]) ?_
      cases hbest : cs.bestOffset <;>
        simp [advancePhase, hphase, advanceSettled, hbest, stageLeft]
  | failedConfirm =>
      refine hunguarded (by simp [hphase]) (by simp [hphase]) (by simp [hphase, isBackoff]) ?_
      have hmoved : (advanceFailedConfirm config cs).phase = .backoffPreconfirm :=
        congrArg Track.phase (advanceFailedConfirm_track hvalid)
      simp [advancePhase, hphase, hmoved, stageLeft]
  | confirmed => exact absurd hphase hunconfirmed
  | coarseSearch | fineSearch | confirming | backoffPreconfirm | backoffConfirming | annealing =>
      exact hstepped_left (by simp [hphase, isStepped])

/-! ## Every sequence of verdicts -/

/-- A verdict in a phase that tests nothing only makes the automatic step. -/
theorem advanceCore_automatic (config : TunerConfig) {passed : Bool}
    (hphase : cs.phase = .notStarted ∨ cs.phase = .settled ∨ cs.phase = .failedConfirm) :
    trackOf config (advanceCore config cs passed).core = trackOf config (prepareSlot config cs) := by
  have hunguarded : cs.phase ≠ .annealing ∧ cs.phase ≠ .confirming ∧ isBackoff cs.phase = false := by
    rcases hphase with hphase | hphase | hphase <;> simp [hphase, isBackoff]
  obtain ⟨hannealing, hconfirming, hbackoff⟩ := hunguarded
  obtain ⟨proven, hadvance⟩ :=
    advanceCore_unguarded config cs hannealing hconfirming hbackoff passed
  obtain ⟨proven', hadvance'⟩ :=
    advanceCore_unguarded config cs hannealing hconfirming hbackoff false
  have hsame : advancePhase config cs passed = advancePhase config cs false := by
    rcases hphase with hphase | hphase | hphase <;> simp only [advancePhase, hphase]
  have hverdict : trackOf config (advanceCore config cs passed).core =
      trackOf config (advanceCore config cs false).core := by
    rw [hadvance, hadvance', hsame]
    rfl
  rw [hverdict, prepareSlot]
  rcases hphase with hphase | hphase
  · have hbegun : (advanceCore config cs false).core.phase = .coarseSearch := by
      rw [hadvance']
      simp [advancePhase, hphase, advanceNotStarted]
    rw [if_pos hphase, leaveSettled, if_neg (by simp [hbegun])]
  · rw [if_neg (by rcases hphase with hphase | hphase <;> simp [hphase]), leaveSettled,
      if_pos hphase]

theorem bracketed_advanceCore (hvalid : config.Valid)
    (hbracketed : (trackOf config cs).Bracketed) {passed : Bool}
    (hunconfirmed : cs.phase ≠ .confirmed) :
    (trackOf config (advanceCore config cs passed).core).Bracketed := by
  by_cases hstepped : isStepped cs.phase = true
  · exact bracketed_step hvalid hbracketed
      (show stepCore config cs (.verdict passed) = _ from if_pos hstepped)
  · have hphase : cs.phase = .notStarted ∨ cs.phase = .settled ∨ cs.phase = .failedConfirm := by
      revert hstepped hunconfirmed
      cases cs.phase <;> simp [isStepped]
    rw [advanceCore_automatic config hphase]
    exact bracketed_step hvalid hbracketed
      (show stepCore config cs .launch = _ from if_neg hunconfirmed)

/-- The core after the first `count` verdicts. -/
abbrev afterVerdicts (config : TunerConfig) : CoreState → (ℕ → Bool) → ℕ → CoreState :=
  Descent.answered fun cs passed => (advanceCore config cs passed).core

/-- **The search of a core ends.**  From every state a core can reach, every sequence of
verdicts confirms it or pauses the session after finitely many. -/
theorem search_ends (hvalid : config.Valid) (hreach : (coreSystem config).Reachable cs)
    (answers : ℕ → Bool) :
    ∃ count, (afterVerdicts config cs answers count).phase = .confirmed ∨
      (advanceCore config (afterVerdicts config cs answers count) (answers count)).paused =
        true := by
  have hbracketed : (trackOf config cs).Bracketed :=
    hreach.invariant (fun _ hstart => bracketed_start hvalid hstart)
      (fun _ _ _ hinv _ hstep => bracketed_step hvalid hinv hstep)
  exact Descent.exists_stop (Stops config) (coreLeft config)
    (fun _ _ hinv hgoing => bracketed_advanceCore hvalid hinv (not_or.mp hgoing).1)
    (fun _ _ hinv hgoing => coreLeft_lower hvalid hinv hgoing) hbracketed answers

/-- A search whose every slot passes ends. -/
theorem search_ends_passing :
    (coreSystem {}).Reachable (startCore {} 0 none none) ∧
      ∃ count, (afterVerdicts {} (startCore {} 0 none none) (fun _ => true) count).phase =
          .confirmed ∨
        (advanceCore {} (afterVerdicts {} (startCore {} 0 none none) (fun _ => true) count)
          true).paused = true :=
  have hreach : (coreSystem {}).Reachable (startCore {} 0 none none) :=
    .start ⟨0, none, none, rfl⟩
  ⟨hreach, search_ends (by decide +kernel) hreach fun _ => true⟩

end Tuner
end CoreCycler
