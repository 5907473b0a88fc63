import CoreCycler.Tuner.Verdict

/-!
# Where a crash penalty leaves a core

The penalty steps back, stops at stock, stops at or descends the baseline, and
demotes the best offset.  The first section says so field by field, in depths.
`PenaltyRetreats` is what all of that is for, and `RetreatSafe` says on which
cores it is achieved.
-/

namespace CoreCycler
namespace Tuner

open Library

variable {config : TunerConfig} {cs : CoreState} {steps : Option Int} {countCrash : Bool}

/-! ## The penalty field by field -/

/-- The depth a penalty steps back to, stopped at stock. -/
def penaltyDepth (config : TunerConfig) (crashedOffset : Int) (steps : Option Int) : Int :=
  max (config.depth crashedOffset - steps.getD config.crashPenaltySteps * config.fineStep) 0

theorem depth_penalizedOffset (hdir : Directed.IsDirection config.direction)
    (crashedOffset : Int) (steps : Option Int) :
    config.depth (penalizedOffset config crashedOffset
      (steps.getD config.crashPenaltySteps)) = penaltyDepth config crashedOffset steps := by
  simp only [penalizedOffset, penaltyDepth]
  split
  · next hpast =>
      rw [TunerConfig.isMoreAggressive_iff hdir, TunerConfig.depth_sub hdir,
        TunerConfig.depth_zero] at hpast
      rw [TunerConfig.depth_zero]
      omega
  · next hpast =>
      rw [TunerConfig.isMoreAggressive_iff hdir, TunerConfig.depth_sub hdir,
        TunerConfig.depth_zero] at hpast
      rw [TunerConfig.depth_sub hdir]
      omega

theorem retreatFromCrash_bestOffset (count : Int) :
    (retreatFromCrash config cs count).bestOffset = cs.bestOffset := by
  simp only [retreatFromCrash]
  split_ifs <;> rfl

theorem retreatFromCrash_bounds (count : Int) :
    (retreatFromCrash config cs count).backoffFailBound = cs.backoffFailBound ∧
      (retreatFromCrash config cs count).backoffPassBound = cs.backoffPassBound := by
  simp only [retreatFromCrash]
  split_ifs <;> exact ⟨rfl, rfl⟩

theorem retreatFromCrash_phase (count : Int) :
    (retreatFromCrash config cs count).phase = cs.phase := by
  simp only [retreatFromCrash]
  split_ifs <;> rfl

theorem depth_retreatFromCrash (hdir : Directed.IsDirection config.direction) :
    config.depth (retreatFromCrash config cs
        (steps.getD config.crashPenaltySteps)).currentOffset =
      (if config.depth cs.currentOffset ≤ config.depth cs.baselineOffset then
        penaltyDepth config cs.currentOffset steps
      else max (penaltyDepth config cs.currentOffset steps) (config.depth cs.baselineOffset)) ∧
    config.depth (retreatFromCrash config cs
        (steps.getD config.crashPenaltySteps)).baselineOffset =
      (if config.depth cs.currentOffset ≤ config.depth cs.baselineOffset then
        penaltyDepth config cs.currentOffset steps
      else config.depth cs.baselineOffset) := by
  have hnew := depth_penalizedOffset hdir cs.currentOffset steps
  simp only [retreatFromCrash, atOrPastBaseline, TunerConfig.atOrPast_iff hdir, hnew]
  split_ifs with hcrashed hfloor
  · exact ⟨hnew, hnew⟩
  · exact ⟨(max_eq_right hfloor).symm, rfl⟩
  · exact ⟨hnew.trans (max_eq_left (not_le.mp hfloor).le).symm, rfl⟩

/-- The core under penalty, with its bookkeeping reset. -/
def resetCursor (cs : CoreState) : CoreState := { cs with batteryIndex := 0, confirmAttempts := 0 }

/-- The core once the crash is recorded and the retreat made. -/
def retreated (config : TunerConfig) (cs : CoreState) (steps : Option Int) : CoreState :=
  retreatFromCrash config (recordCrash config (resetCursor cs))
    (steps.getD config.crashPenaltySteps)

theorem penalty_currentOffset (htuned : cs.currentOffset ≠ 0) :
    (applyCrashPenalty config cs steps countCrash).core.currentOffset =
      (retreated config cs steps).currentOffset := by
  rw [applyCrashPenalty, if_neg htuned]
  rfl

theorem penalty_baselineOffset (htuned : cs.currentOffset ≠ 0) :
    (applyCrashPenalty config cs steps countCrash).core.baselineOffset =
      (retreated config cs steps).baselineOffset := by
  rw [applyCrashPenalty, if_neg htuned]
  rfl

theorem penalty_bestOffset (htuned : cs.currentOffset ≠ 0) :
    (applyCrashPenalty config cs steps countCrash).core.bestOffset =
      match cs.bestOffset with
      | none => some (retreated config cs steps).baselineOffset
      | some best =>
          if config.isMoreAggressive best (retreated config cs steps).currentOffset then
            some (retreated config cs steps).currentOffset
          else some best := by
  rw [applyCrashPenalty, if_neg htuned]
  simp only [demoteBest, retreatFromCrash_bestOffset]
  rfl

theorem penalty_backoffFailBound (htuned : cs.currentOffset ≠ 0) :
    (applyCrashPenalty config cs steps countCrash).core.backoffFailBound =
      (recordCrash config cs).backoffFailBound := by
  rw [applyCrashPenalty, if_neg htuned]
  simp only [demoteBest, (retreatFromCrash_bounds _).1]
  rfl

theorem penalty_backoffPassBound (htuned : cs.currentOffset ≠ 0) :
    (applyCrashPenalty config cs steps countCrash).core.backoffPassBound =
      (recordCrash config cs).backoffPassBound := by
  rw [applyCrashPenalty, if_neg htuned]
  simp only [demoteBest, (retreatFromCrash_bounds _).2]
  rfl

theorem penalty_phase (htuned : cs.currentOffset ≠ 0) :
    (applyCrashPenalty config cs steps countCrash).core.phase =
      if forcedIntoBackoff cs.phase then .backoffPreconfirm else cs.phase := by
  rw [applyCrashPenalty, if_neg htuned]
  simp only [demoteBest, retreatFromCrash_phase]
  rfl

theorem depth_retreated (hdir : Directed.IsDirection config.direction) (cs : CoreState)
    (steps : Option Int) :
    config.depth (retreated config cs steps).currentOffset =
      (if config.depth cs.currentOffset ≤ config.depth cs.baselineOffset then
        penaltyDepth config cs.currentOffset steps
      else max (penaltyDepth config cs.currentOffset steps) (config.depth cs.baselineOffset)) ∧
    config.depth (retreated config cs steps).baselineOffset =
      (if config.depth cs.currentOffset ≤ config.depth cs.baselineOffset then
        penaltyDepth config cs.currentOffset steps
      else config.depth cs.baselineOffset) :=
  depth_retreatFromCrash hdir

/-! ## What a penalty is for -/

/-- `other` is not on the far side of stock from `offset`. -/
def SameSide (config : TunerConfig) (offset other : Int) : Prop :=
  (0 < config.depth offset → 0 ≤ config.depth other) ∧
    (config.depth offset < 0 → config.depth other ≤ 0)

/-- A penalty retreats: the offsets in use fall strictly short of the crashed one
without crossing stock, the fail bound is recorded between the two, the pass bound
stays short of the fail bound, and a baseline that crashed descends. -/
structure PenaltyRetreats (config : TunerConfig) (before after : CoreState) : Prop where
  current : config.depth after.currentOffset < config.depth before.currentOffset ∧
    SameSide config before.currentOffset after.currentOffset
  best : ∃ best, after.bestOffset = some best ∧
    config.depth best < config.depth before.currentOffset ∧
    SameSide config before.currentOffset best
  failBound : ∃ bound, after.backoffFailBound = some bound ∧
    config.depth bound ≤ config.depth before.currentOffset ∧
    config.depth after.currentOffset < config.depth bound
  passBound : ∀ passBound failBound, after.backoffPassBound = some passBound →
    after.backoffFailBound = some failBound → config.depth passBound < config.depth failBound
  baseline : config.depth before.currentOffset ≤ config.depth before.baselineOffset →
    config.depth after.baselineOffset < config.depth before.currentOffset

/-- The cores a penalty retreats on: the crashed offset and the best offset are on
the aggressive side of stock, and the bounds on record already leave room for the
retreat. -/
structure RetreatSafe (config : TunerConfig) (cs : CoreState) (steps : Option Int) : Prop where
  beyondStock : 0 < config.depth cs.currentOffset
  best_side : 0 ≤ config.depth (cs.bestOffset.getD cs.baselineOffset)
  room : ∀ bound, cs.backoffFailBound = some bound →
    penaltyDepth config cs.currentOffset steps < config.depth bound ∧
      (config.depth cs.baselineOffset < config.depth cs.currentOffset →
        config.depth cs.baselineOffset < config.depth bound)
  ordered : ∀ passBound failBound, cs.backoffPassBound = some passBound →
    cs.backoffFailBound = some failBound →
    config.depth passBound < config.depth cs.currentOffset →
    config.depth passBound < config.depth failBound

/-- A penalty takes at least one step. -/
def PositiveSteps (steps : Option Int) : Prop := ∀ count, steps = some count → 1 ≤ count

/-- Every penalty steps back. -/
theorem penaltyStep_pos (hvalid : config.Valid) (hsteps : PositiveSteps steps) :
    1 ≤ steps.getD config.crashPenaltySteps * config.fineStep := by
  have hcount : 1 ≤ steps.getD config.crashPenaltySteps := by
    cases steps with
    | none => exact hvalid.crashPenaltySteps_pos
    | some count => exact hsteps count rfl
  exact one_le_mul_of_one_le_of_one_le hcount hvalid.fineStep_pos

theorem penaltyDepth_lt (hvalid : config.Valid) (hsteps : PositiveSteps steps) {offset : Int}
    (hbeyond : 0 < config.depth offset) :
    penaltyDepth config offset steps < config.depth offset := by
  have hstep := penaltyStep_pos hvalid hsteps
  simp only [penaltyDepth]
  omega

theorem penaltyDepth_nonneg (config : TunerConfig) (offset : Int) (steps : Option Int) :
    0 ≤ penaltyDepth config offset steps :=
  le_max_right _ _

theorem penaltyRetreats_of_safe (hvalid : config.Valid) (htuned : cs.currentOffset ≠ 0)
    (hsteps : PositiveSteps steps) (hsafe : RetreatSafe config cs steps) :
    PenaltyRetreats config cs (applyCrashPenalty config cs steps countCrash).core := by
  have hdir := hvalid.direction
  have hbeyond := hsafe.beyondStock
  have hlt := penaltyDepth_lt hvalid hsteps hbeyond
  have hnonneg := penaltyDepth_nonneg config cs.currentOffset steps
  obtain ⟨hcurrent, hbaseline⟩ := depth_retreated hdir cs steps
  obtain ⟨bound, hbound, hle, hold, hfrom⟩ := recordCrash_backoffFailBound hdir cs
  have hretreat : config.depth (retreated config cs steps).currentOffset <
      config.depth cs.currentOffset := by
    rw [hcurrent]
    split_ifs <;> omega
  have hside : 0 ≤ config.depth (retreated config cs steps).currentOffset := by
    rw [hcurrent]
    split_ifs <;> omega
  constructor
  · rw [penalty_currentOffset htuned]
    exact ⟨hretreat, fun _ => hside, fun hfar => absurd hfar hbeyond.not_gt⟩
  · rw [penalty_bestOffset htuned]
    have hbest := hsafe.best_side
    cases hold' : cs.bestOffset with
    | none =>
        simp only [hold', Option.getD_none] at hbest
        refine ⟨_, rfl, ?_, fun _ => ?_, fun hfar => absurd hfar hbeyond.not_gt⟩
        · rw [hbaseline]
          split_ifs <;> omega
        · rw [hbaseline]
          split_ifs <;> omega
    | some best =>
        simp only [hold', Option.getD_some] at hbest
        simp only [TunerConfig.isMoreAggressive_iff hdir]
        split_ifs with hdeeper
        · exact ⟨_, rfl, hretreat, fun _ => hside, fun hfar => absurd hfar hbeyond.not_gt⟩
        · exact ⟨best, rfl, by omega, fun _ => hbest, fun hfar => absurd hfar hbeyond.not_gt⟩
  · rw [penalty_backoffFailBound htuned, penalty_currentOffset htuned]
    refine ⟨bound, hbound, hle, ?_⟩
    -- The fail bound is this crash, or an older one that the penalty leaves room for.
    rcases hfrom with hsame | hkept
    · omega
    · have hroom := hsafe.room bound hkept
      rw [hcurrent]
      split_ifs <;> omega
  · intro passBound failBound hpass hfail
    rw [penalty_backoffPassBound htuned, recordCrash_backoffPassBound hdir] at hpass
    rw [penalty_backoffFailBound htuned, hbound, Option.some.injEq] at hfail
    subst hfail
    rcases hfrom with hsame | hkept
    · omega
    · exact hsafe.ordered passBound bound hpass.1 hkept hpass.2
  · intro hcrashed
    rw [penalty_baselineOffset htuned, hbaseline, if_pos hcrashed]
    exact hlt

/-- Short of stock the penalty jumps to stock, which is more aggressive. -/
theorem not_penaltyRetreats_of_short (hvalid : config.Valid)
    (hshort : config.depth cs.currentOffset < 0) :
    ¬ PenaltyRetreats config cs (applyCrashPenalty config cs steps countCrash).core := by
  have hdir := hvalid.direction
  have htuned : cs.currentOffset ≠ 0 := by
    intro hzero
    simp [hzero] at hshort
  intro hretreats
  have hcurrent := hretreats.current.1
  rw [penalty_currentOffset htuned, (depth_retreated hdir cs steps).1] at hcurrent
  have hnonneg := penaltyDepth_nonneg config cs.currentOffset steps
  split_ifs at hcurrent <;> omega

theorem safe_of_penaltyRetreats (hvalid : config.Valid) (htuned : cs.currentOffset ≠ 0)
    (hretreats : PenaltyRetreats config cs
      (applyCrashPenalty config cs steps countCrash).core) :
    RetreatSafe config cs steps := by
  have hdir := hvalid.direction
  -- Short of stock every penalty is an advance, so the core was beyond it.
  have hbeyond : 0 < config.depth cs.currentOffset := by
    by_contra hnot
    have hne : config.depth cs.currentOffset ≠ 0 :=
      mt (TunerConfig.depth_eq_zero hdir).mp htuned
    exact not_penaltyRetreats_of_short hvalid (by omega) hretreats
  have hnonneg := penaltyDepth_nonneg config cs.currentOffset steps
  obtain ⟨hcurrent, hbaseline⟩ := depth_retreated hdir cs steps
  obtain ⟨bound, hbound, hle, hold, hfrom⟩ := recordCrash_backoffFailBound hdir cs
  constructor
  · exact hbeyond
  · obtain ⟨best, hbest, -, hside, -⟩ := hretreats.best
    have hsame := hside hbeyond
    rw [penalty_bestOffset htuned] at hbest
    cases hold' : cs.bestOffset with
    | none =>
        simp only [hold', Option.some.injEq] at hbest
        rw [← hbest, hbaseline] at hsame
        simp only [Option.getD_none]
        split_ifs at hsame <;> omega
    | some old =>
        simp only [hold', TunerConfig.isMoreAggressive_iff hdir] at hbest
        simp only [Option.getD_some]
        split_ifs at hbest with hdeeper
        · rw [hcurrent] at hdeeper
          split_ifs at hdeeper <;> omega
        · rwa [Option.some.inj hbest]
  · intro old hrecorded
    obtain ⟨after, hafter, -, hpassed⟩ := hretreats.failBound
    rw [penalty_backoffFailBound htuned, hbound, Option.some.injEq] at hafter
    subst hafter
    rw [penalty_currentOffset htuned, hcurrent] at hpassed
    have hshort := hold old hrecorded
    split_ifs at hpassed <;> omega
  · intro passBound failBound hpass hfail hshort
    have hordered := hretreats.passBound passBound bound
      (by rw [penalty_backoffPassBound htuned, recordCrash_backoffPassBound hdir]
          exact ⟨hpass, hshort⟩)
      (by rw [penalty_backoffFailBound htuned, hbound])
    have hshortest := hold failBound hfail
    omega

/-- **When a crash penalty retreats.**  For every valid configuration, every core and
every positive step count, the penalty at a nonzero offset retreats exactly on the
cores of `RetreatSafe`. -/
theorem crash_penalty_retreats_iff (hvalid : config.Valid) (htuned : cs.currentOffset ≠ 0)
    (hsteps : PositiveSteps steps) :
    PenaltyRetreats config cs (applyCrashPenalty config cs steps countCrash).core ↔
      RetreatSafe config cs steps :=
  ⟨safe_of_penaltyRetreats hvalid htuned, penaltyRetreats_of_safe hvalid htuned hsteps⟩

/-- An undervolting search that starts above stock. -/
def startAboveStock : TunerConfig := { startOffset := 10, maxOffset := -20 }

/-- The first slot runs at +5, and a crash there sends the core down to stock. -/
theorem penalty_crosses_to_stock :
    startAboveStock.Valid ∧
      (prepareSlot startAboveStock (startCore startAboveStock 0 none none)).currentOffset = 5 ∧
      (applyCrashPenalty startAboveStock
        (prepareSlot startAboveStock (startCore startAboveStock 0 none none)) none
        true).core.currentOffset = 0 ∧
      ¬ PenaltyRetreats startAboveStock
        (prepareSlot startAboveStock (startCore startAboveStock 0 none none))
        (applyCrashPenalty startAboveStock
          (prepareSlot startAboveStock (startCore startAboveStock 0 none none)) none true).core := by
  refine ⟨by decide +kernel, by decide, by decide, ?_⟩
  intro hretreats
  have hcurrent := hretreats.current.1
  revert hcurrent
  decide

/-- The first slot of the default search runs at -5, and a crash there retreats. -/
theorem crash_penalty_retreats_iff_default :
    PenaltyRetreats {} (prepareSlot {} (startCore {} 0 none none))
      (applyCrashPenalty {} (prepareSlot {} (startCore {} 0 none none)) none true).core :=
  (crash_penalty_retreats_iff (by decide +kernel) (by decide) (by simp [PositiveSteps])).mpr
    ⟨by decide, by decide, by decide, fun _ _ hpass => by cases hpass⟩

end Tuner
end CoreCycler
