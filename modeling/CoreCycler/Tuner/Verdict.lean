import CoreCycler.Tuner.Advance

/-!
# What each verdict does

One inversion lemma for each step of the state machine, in depths: which phase
the core ends in and where its offsets end up.  Proofs about runs cite these and
never unfold a transition.
-/

namespace CoreCycler
namespace Tuner

open Library TunerConfig

variable {config : TunerConfig} {cs : CoreState}

/-! ## Helpers in depths -/

theorem isBackoff_iff {phase : TunerPhase} :
    isBackoff phase = true ↔ phase = .backoffPreconfirm ∨ phase = .backoffConfirming := by
  simp [isBackoff]

theorem depth_retreatTo (hdir : Directed.IsDirection config.direction) (offset : Int) :
    config.depth (retreatTo config cs offset) =
      max (config.depth offset) (config.depth cs.baselineOffset) := by
  simp only [retreatTo, atOrPastBaseline, atOrPast_iff hdir]
  split_ifs with hpast
  · exact (max_eq_right hpast).symm
  · exact (max_eq_left (not_le.mp hpast).le).symm

theorem getCoarseStep_pos (hvalid : config.Valid) (cs : CoreState) : 1 ≤ getCoarseStep config cs := by
  have hfine := hvalid.fineStep_pos
  have hcoarse := hvalid.fineStep_le
  simp only [getCoarseStep]
  split_ifs <;> omega

theorem reachesCoarseFail_iff (hdir : Directed.IsDirection config.direction) {offset : Int} :
    reachesCoarseFail config cs offset = true ↔
      ∃ failed, cs.coarseFailOffset = some failed ∧
        config.depth failed ≤ config.depth offset := by
  rw [reachesCoarseFail]
  cases cs.coarseFailOffset with
  | none => simp
  | some failed => rcases hdir with hdir | hdir <;> simp [depth, Directed.depth, hdir]

theorem gapBetween_abs (hdir : Directed.IsDirection config.direction) (first second : Int) :
    gapBetween first second = |config.depth first - config.depth second| := by
  rw [gapBetween, Directed.natAbs_sub_eq hdir, Int.natCast_natAbs]
  rfl

theorem gapBetween_eq (hdir : Directed.IsDirection config.direction) {deeper shallower : Int}
    (hle : config.depth shallower ≤ config.depth deeper) :
    gapBetween deeper shallower = config.depth deeper - config.depth shallower := by
  rw [gapBetween_abs hdir, abs_of_nonneg (sub_nonneg.mpr hle)]

/-! ## Bounds after a failure -/

/-- The fail bound after a crash is the least aggressive failing offset. -/
theorem recordCrash_backoffFailBound (hdir : Directed.IsDirection config.direction)
    (cs : CoreState) :
    ∃ bound, (recordCrash config cs).backoffFailBound = some bound ∧
      config.depth bound ≤ config.depth cs.currentOffset ∧
      (∀ old, cs.backoffFailBound = some old → config.depth bound ≤ config.depth old) ∧
      (config.depth bound = config.depth cs.currentOffset ∨
        cs.backoffFailBound = some bound) := by
  simp only [recordCrash, isMoreAggressive_iff hdir]
  cases hold : cs.backoffFailBound with
  | none => exact ⟨cs.currentOffset, rfl, le_refl _, by simp, .inl rfl⟩
  | some old =>
      by_cases hdeeper : config.depth old < config.depth cs.currentOffset
      · exact ⟨old, by simp [hdeeper], hdeeper.le, by simp, .inr rfl⟩
      · exact ⟨cs.currentOffset, by simp [hdeeper], le_refl _, by simpa using hdeeper, .inl rfl⟩

/-- Only a pass bound short of the crashed offset survives the crash. -/
theorem recordCrash_backoffPassBound (hdir : Directed.IsDirection config.direction)
    {bound : Int} :
    (recordCrash config cs).backoffPassBound = some bound ↔
      cs.backoffPassBound = some bound ∧ config.depth bound < config.depth cs.currentOffset := by
  simp only [recordCrash]
  cases cs.backoffPassBound with
  | none => simp
  | some old =>
      simp only [Option.ite_none_right_eq_some, isMoreAggressive_iff hdir,
        Option.some.injEq]
      constructor
      · rintro ⟨hshort, rfl⟩
        exact ⟨rfl, hshort⟩
      · rintro ⟨rfl, hshort⟩
        exact ⟨hshort, rfl⟩

/-- A failed back-off slot and a crash tighten the bounds in the same way. -/
theorem recordBackoffFail_eq (hdir : Directed.IsDirection config.direction) (cs : CoreState) :
    recordBackoffFail config cs = recordCrash config cs := by
  rw [recordBackoffFail, recordCrash]
  congr 1
  cases cs.backoffFailBound with
  | none => rfl
  | some bound =>
      simp only [isMoreAggressive_iff hdir]
      split_ifs with hdeeper hdeeper' hdeeper'
      · omega
      · rfl
      · rfl
      · rw [Option.some.injEq, ← depth_inj hdir]
        omega

/-! ## Search -/

theorem depth_advanceNotStarted (hdir : Directed.IsDirection config.direction) :
    config.depth (advanceNotStarted config cs).currentOffset =
      min (config.depth (searchBase config cs) + config.coarseStep)
        (config.depth config.maxOffset) := by
  simp only [advanceNotStarted, exceedsMax_iff hdir, depth_add hdir]
  split_ifs with hcap
  · exact (min_eq_right hcap.le).symm
  · rw [depth_add hdir]
    exact (min_eq_left (not_lt.mp hcap)).symm

/-- A coarse pass settles at the cap, or goes deeper within it. -/
theorem advanceCoarse_pass (hvalid : config.Valid) (cs : CoreState) :
    (advanceCoarse config cs true).core =
      { cs with bestOffset := some cs.currentOffset, phase := .settled } ∨
    ∃ next, config.depth cs.currentOffset < config.depth next ∧
      config.depth next ≤ config.depth config.maxOffset ∧
      (advanceCoarse config cs true).core =
        { cs with bestOffset := some cs.currentOffset, currentOffset := next } := by
  have hdir := hvalid.direction
  have hstep := getCoarseStep_pos hvalid cs
  by_cases hcap : config.exceedsMax
      (cs.currentOffset + config.direction * getCoarseStep config cs) = true
  · left
    have hstep' : getCoarseStep config { cs with bestOffset := some cs.currentOffset } =
        getCoarseStep config cs := rfl
    simp [advanceCoarse, hstep', hcap]
  · right
    have hstep' : getCoarseStep config { cs with bestOffset := some cs.currentOffset } =
        getCoarseStep config cs := rfl
    refine ⟨cs.currentOffset + config.direction * getCoarseStep config cs, ?_, ?_, ?_⟩
    · rw [depth_add hdir]
      omega
    · rwa [exceedsMax_iff hdir, not_lt] at hcap
    · simp [advanceCoarse, hstep', hcap]

/-- A coarse failure before any pass opens the back-off from the offset it failed at. -/
theorem advanceCoarse_fail_none (hdir : Directed.IsDirection config.direction)
    (hbest : cs.bestOffset = none) :
    ∃ next, config.depth next =
        max (config.depth cs.currentOffset - config.fineStep) (config.depth cs.baselineOffset) ∧
      (advanceCoarse config cs false).core =
        { cs with
          coarseFailOffset := some cs.currentOffset
          backoffFailBound := some cs.currentOffset
          bestOffset := some next
          currentOffset := next
          backoffMode := true
          phase := .backoffPreconfirm } := by
  refine ⟨retreatTo config cs (cs.currentOffset - config.direction * config.fineStep), ?_, ?_⟩
  · rw [depth_retreatTo hdir, depth_sub hdir]
  · simp only [advanceCoarse, Bool.false_eq_true, if_false, hbest]
    rfl

/-- A coarse failure past a pass goes back to the pass and searches in fine steps,
or settles when the first fine step is known to fail. -/
theorem advanceCoarse_fail_some (hdir : Directed.IsDirection config.direction) {best : Int}
    (hbest : cs.bestOffset = some best) :
    ∃ probe, config.depth probe =
        min (config.depth best + config.fineStep) (config.depth config.maxOffset) ∧
      (config.depth cs.currentOffset ≤ config.depth probe ∧
        (advanceCoarse config cs false).core =
          { cs with
            coarseFailOffset := some cs.currentOffset
            currentOffset := probe
            phase := .settled } ∨
      config.depth probe < config.depth cs.currentOffset ∧
        (advanceCoarse config cs false).core =
          { cs with
            coarseFailOffset := some cs.currentOffset
            currentOffset := probe
            phase := .fineSearch }) := by
  refine ⟨if config.exceedsMax (best + config.direction * config.fineStep) then config.maxOffset
    else best + config.direction * config.fineStep, ?_, ?_⟩
  · simp only [exceedsMax_iff hdir, depth_add hdir]
    split_ifs with hcap
    · exact (min_eq_right hcap.le).symm
    · rw [depth_add hdir]
      exact (min_eq_left (not_lt.mp hcap)).symm
  · simp only [advanceCoarse, Bool.false_eq_true, if_false, hbest]
    generalize (if config.exceedsMax (best + config.direction * config.fineStep) = true then
      config.maxOffset else best + config.direction * config.fineStep) = probe
    split_ifs with hreach
    · rw [reachesCoarseFail_iff hdir] at hreach
      obtain ⟨failed, hfailed, hle⟩ := hreach
      obtain rfl := Option.some.inj hfailed
      exact .inl ⟨hle, rfl⟩
    · rw [reachesCoarseFail_iff hdir] at hreach
      refine .inr ⟨?_, rfl⟩
      by_contra hnot
      exact hreach ⟨_, rfl, not_lt.mp hnot⟩

/-- A fine pass settles, or goes one fine step deeper short of the coarse failure and
within the cap. -/
theorem advanceFine_pass (hdir : Directed.IsDirection config.direction) (cs : CoreState) :
    advanceFine config cs true =
      { cs with bestOffset := some cs.currentOffset, phase := .settled } ∨
    ∃ next, config.depth next = config.depth cs.currentOffset + config.fineStep ∧
      config.depth next ≤ config.depth config.maxOffset ∧
      (∀ failed, cs.coarseFailOffset = some failed →
        config.depth next < config.depth failed) ∧
      advanceFine config cs true =
        { cs with bestOffset := some cs.currentOffset, currentOffset := next } := by
  have hsame : reachesCoarseFail config { cs with bestOffset := some cs.currentOffset }
      (cs.currentOffset + config.direction * config.fineStep) =
      reachesCoarseFail config cs (cs.currentOffset + config.direction * config.fineStep) := rfl
  by_cases hstop : (reachesCoarseFail config cs
      (cs.currentOffset + config.direction * config.fineStep) ||
      config.exceedsMax (cs.currentOffset + config.direction * config.fineStep)) = true
  · left
    simp only [advanceFine, if_true, hsame, if_pos hstop]
  · right
    refine ⟨cs.currentOffset + config.direction * config.fineStep, depth_add hdir _ _, ?_, ?_, ?_⟩
    · simp only [Bool.or_eq_true, not_or, exceedsMax_iff hdir, not_lt] at hstop
      exact hstop.2
    · intro failed hfailed
      simp only [Bool.or_eq_true, not_or, reachesCoarseFail_iff hdir] at hstop
      by_contra hnot
      exact hstop.1 ⟨failed, hfailed, not_lt.mp hnot⟩
    · simp only [advanceFine, if_true, hsame, if_neg hstop]

/-! ## Back-off -/

/-- A preconfirmation pass short of the fail bound moves on to confirm the offset, or
probes strictly between it and the fail bound. -/
theorem preconfirmPass_cases (hvalid : config.Valid) (cs : CoreState)
    (hshort : ∀ bound, cs.backoffFailBound = some bound →
      config.depth cs.currentOffset < config.depth bound) :
    (∃ attempts, preconfirmPass config cs =
      { cs with
        bestOffset := some cs.currentOffset
        backoffPassBound := some cs.currentOffset
        phase := .backoffConfirming
        confirmAttempts := attempts }) ∨
    ∃ mid bound, cs.backoffFailBound = some bound ∧
      config.depth cs.currentOffset < config.depth mid ∧
      config.depth mid < config.depth bound ∧
      preconfirmPass config cs =
        { cs with
          bestOffset := some cs.currentOffset
          backoffPassBound := some cs.currentOffset
          currentOffset := mid } := by
  have hdir := hvalid.direction
  have hfine := hvalid.fineStep_pos
  cases hpass : cs.backoffPassBound with
  | none => exact .inl ⟨0, by simp only [preconfirmPass, hpass]⟩
  | some passBound =>
      cases hfail : cs.backoffFailBound with
      | none => exact .inl ⟨0, by simp only [preconfirmPass, hpass, hfail]⟩
      | some bound =>
          have hlt := hshort bound hfail
          have hgap := gapBetween_eq hdir hlt.le
          by_cases hnear : gapBetween bound cs.currentOffset ≤ config.fineStep
          · left
            exact ⟨cs.confirmAttempts, by simp only [preconfirmPass, hpass, hfail, if_pos hnear]⟩
          · right
            refine ⟨cs.currentOffset + config.direction *
              (gapBetween bound cs.currentOffset / 2), bound, rfl, ?_, ?_, ?_⟩
            · rw [depth_add hdir]
              omega
            · rw [depth_add hdir]
              omega
            · simp only [preconfirmPass, hpass, hfail, if_neg hnear]

/-- A preconfirmation failure with a pass bound goes back to confirm the pass bound, or
probes half way to the fail bound. -/
theorem preconfirmFail_some (hdir : Directed.IsDirection config.direction)
    {passBound failBound : Int} (hpass : cs.backoffPassBound = some passBound)
    (hfail : cs.backoffFailBound = some failBound) :
    preconfirmFail config cs =
      { cs with
        consecutiveBackoffFails := cs.consecutiveBackoffFails + 1
        bestOffset := some passBound
        phase := .backoffConfirming
        currentOffset := passBound } ∨
    ∃ mid, config.depth mid =
        config.depth passBound + |config.depth failBound - config.depth passBound| / 2 ∧
      preconfirmFail config cs =
        { cs with
          consecutiveBackoffFails := cs.consecutiveBackoffFails + 1
          bestOffset := some passBound
          currentOffset := mid } := by
  by_cases hnear : gapBetween failBound passBound ≤ config.fineStep
  · left
    simp only [preconfirmFail, hpass, hfail, Option.getD_some, if_pos hnear]
  · right
    refine ⟨passBound + config.direction * (gapBetween failBound passBound / 2), ?_, ?_⟩
    · rw [depth_add hdir, gapBetween_abs hdir]
    · simp only [preconfirmFail, hpass, hfail, Option.getD_some, if_neg hnear]

theorem fineStep_le_backoffStep (cs : CoreState) :
    config.fineStep ≤ backoffStep config cs := by
  rw [backoffStep]
  split_ifs
  · exact le_max_left _ _
  · exact le_refl _

/-- A preconfirmation failure without a pass bound steps back by at least a fine step,
down to the baseline. -/
theorem preconfirmFail_none (hdir : Directed.IsDirection config.direction)
    (hpass : cs.backoffPassBound = none) :
    ∃ step next fails, config.fineStep ≤ step ∧
      config.depth next =
        max (config.depth cs.currentOffset - step) (config.depth cs.baselineOffset) ∧
      preconfirmFail config cs =
        { cs with
          consecutiveBackoffFails := fails
          bestOffset := some next
          currentOffset := next } := by
  let failed : CoreState :=
    { cs with consecutiveBackoffFails := cs.consecutiveBackoffFails + 1 }
  refine ⟨backoffStep config failed,
    retreatTo config failed (cs.currentOffset - config.direction * backoffStep config failed),
    if jumpsToMidpoint config failed then 0 else failed.consecutiveBackoffFails,
    fineStep_le_backoffStep failed, ?_, ?_⟩
  · rw [depth_retreatTo hdir, depth_sub hdir]
  · simp only [preconfirmFail, hpass]
    rfl

/-- A confirmed back-off short of the fail bound confirms the core, or probes strictly
between the offset and the fail bound. -/
theorem backoffConfirmPass_cases (hvalid : config.Valid) (cs : CoreState)
    (hshort : ∀ bound, cs.backoffFailBound = some bound →
      config.depth cs.currentOffset < config.depth bound) :
    backoffConfirmPass config cs =
      { cs with
        bestOffset := some cs.currentOffset
        backoffPassBound := some cs.currentOffset
        phase := .confirmed } ∨
    ∃ mid bound, cs.backoffFailBound = some bound ∧
      config.depth cs.currentOffset < config.depth mid ∧
      config.depth mid < config.depth bound ∧
      backoffConfirmPass config cs =
        { cs with
          bestOffset := some cs.currentOffset
          backoffPassBound := some cs.currentOffset
          currentOffset := mid
          phase := .backoffPreconfirm } := by
  have hdir := hvalid.direction
  have hfine := hvalid.fineStep_pos
  cases hfail : cs.backoffFailBound with
  | none => exact .inl (by simp only [backoffConfirmPass, hfail])
  | some bound =>
      have hlt := hshort bound hfail
      have hgap := gapBetween_eq hdir hlt.le
      by_cases hnear : gapBetween bound cs.currentOffset ≤ config.fineStep
      · exact .inl (by simp only [backoffConfirmPass, hfail, if_pos hnear])
      · right
        refine ⟨cs.currentOffset + config.direction *
          (gapBetween bound cs.currentOffset / 2), bound, rfl, ?_, ?_, ?_⟩
        · rw [depth_add hdir]
          omega
        · rw [depth_add hdir]
          omega
        · simp only [backoffConfirmPass, hfail, if_neg hnear]

/-- A failed back-off confirmation falls back to a deeper pass bound, or steps back from
the best offset down to the baseline. -/
theorem backoffConfirmFail_cases (hdir : Directed.IsDirection config.direction) {best : Int}
    (hbest : cs.bestOffset = some best) :
    (∃ floor, cs.backoffPassBound = some floor ∧
      config.depth best - config.fineStep < config.depth floor ∧
      backoffConfirmFail config cs =
        { cs with
          phase := .backoffConfirming
          bestOffset := some floor
          currentOffset := floor }) ∨
    ∃ next, config.depth next =
        max (config.depth best - config.fineStep) (config.depth cs.baselineOffset) ∧
      backoffConfirmFail config cs =
        { cs with
          phase := .backoffPreconfirm
          bestOffset := some next
          currentOffset := next } := by
  simp only [backoffConfirmFail, hbest, Option.getD_some, backoffFloor]
  cases hpass : cs.backoffPassBound with
  | none =>
      right
      exact ⟨_, by rw [depth_retreatTo hdir, depth_sub hdir], rfl⟩
  | some floor =>
      simp only [isMoreAggressive_iff hdir, depth_sub hdir]
      by_cases hdeeper : config.depth best - config.fineStep < config.depth floor
      · left
        exact ⟨floor, rfl, hdeeper, by rw [if_pos hdeeper]⟩
      · right
        refine ⟨retreatTo config cs (best - config.direction * config.fineStep), ?_, ?_⟩
        · rw [depth_retreatTo hdir, depth_sub hdir]
        · rw [if_neg hdeeper]

/-! ## Contradictory passes -/

theorem handleContradictoryPass_eq_none (hdir : Directed.IsDirection config.direction) :
    handleContradictoryPass config cs = none ↔
      ∀ bound, cs.backoffFailBound = some bound →
        config.depth cs.currentOffset < config.depth bound := by
  rw [handleContradictoryPass]
  cases cs.backoffFailBound with
  | none => simp
  | some bound =>
      simp only [isMoreAggressive_iff hdir]
      split_ifs <;> simp_all

/-- A contradictory pass falls back to the baseline, or to one fine step inside the fail
bound with the best offset no deeper. -/
theorem handleContradictoryPass_eq_some (hdir : Directed.IsDirection config.direction)
    {outcome : Outcome} (hsome : handleContradictoryPass config cs = some outcome) :
    ∃ bound, cs.backoffFailBound = some bound ∧
      config.depth bound ≤ config.depth cs.currentOffset ∧
      (config.depth bound - config.fineStep ≤ config.depth cs.baselineOffset ∧
        outcome.core =
          { cs with
            phase := .backoffPreconfirm
            bestOffset := some cs.baselineOffset
            currentOffset := cs.baselineOffset } ∨
      ∃ back best, config.depth back = config.depth bound - config.fineStep ∧
        config.depth cs.baselineOffset < config.depth back ∧
        (best = none ∧ cs.bestOffset = none ∨
          ∃ old new, cs.bestOffset = some old ∧ best = some new ∧
            config.depth new = min (config.depth old) (config.depth back)) ∧
        outcome.core =
          { cs with
            phase := .backoffPreconfirm
            currentOffset := back
            bestOffset := best }) := by
  rw [handleContradictoryPass] at hsome
  cases hfail : cs.backoffFailBound with
  | none => simp [hfail] at hsome
  | some bound =>
      simp only [hfail, isMoreAggressive_iff hdir, atOrPastBaseline, atOrPast_iff hdir,
        depth_sub hdir] at hsome
      split_ifs at hsome with hshort hfloor
      · refine ⟨bound, rfl, not_lt.mp hshort, .inl ⟨hfloor, ?_⟩⟩
        exact congrArg Outcome.core (Option.some.inj hsome).symm
      · refine ⟨bound, rfl, not_lt.mp hshort, .inr ⟨bound - config.direction * config.fineStep, _,
          depth_sub hdir _ _, ?_, ?_, congrArg Outcome.core (Option.some.inj hsome).symm⟩⟩
        · rw [depth_sub hdir]
          exact not_le.mp hfloor
        · cases hbest : cs.bestOffset with
          | none => exact .inl ⟨rfl, rfl⟩
          | some old =>
              refine .inr ⟨old, if config.depth (bound - config.direction * config.fineStep) <
                  config.depth old then bound - config.direction * config.fineStep else old,
                rfl, ?_, ?_⟩
              · simp only [depth_sub hdir]
                split_ifs <;> rfl
              · split_ifs with hdeeper <;> rw [depth_sub hdir] at hdeeper ⊢ <;> omega

/-! ## The verdict as a whole -/

@[simp] theorem recordProven_false (outcome : Outcome) : recordProven outcome false = outcome := by
  simp [recordProven]

/-- Recording a proven offset changes nothing else. -/
theorem recordProven_core (outcome : Outcome) (passed : Bool) :
    ∃ proven, (recordProven outcome passed).core =
      { outcome.core with provenOffset := proven } := by
  rw [recordProven]
  split_ifs
  · exact ⟨_, rfl⟩
  · exact ⟨outcome.core.provenOffset, rfl⟩

theorem advanceCore_annealing (hphase : cs.phase = .annealing) (passed : Bool) :
    advanceCore config cs passed = resolveAnneal config cs passed := by
  rw [advanceCore, if_pos hphase]

/-- Phases without guards take their own step. -/
theorem advanceCore_unguarded (config : TunerConfig) (cs : CoreState)
    (hannealing : cs.phase ≠ .annealing) (hconfirming : cs.phase ≠ .confirming)
    (hbackoff : isBackoff cs.phase = false) (passed : Bool) :
    ∃ proven, (advanceCore config cs passed).core =
      { (advancePhase config cs passed).core with provenOffset := proven } := by
  have habsorb : absorbVerdict config cs passed = cs := by
    simp [absorbVerdict, normalizeBest, hbackoff]
  have hclear : baselineFailed config cs passed = false := by
    simp [baselineFailed, hconfirming, hbackoff]
  rw [advanceCore, if_neg hannealing]
  simp only [habsorb, hclear, hbackoff, Bool.and_false, Bool.false_eq_true, if_false]
  exact recordProven_core _ _

theorem advanceCore_confirming_pass (config : TunerConfig) (hphase : cs.phase = .confirming) :
    ∃ proven, (advanceCore config cs true).core =
      { cs with phase := .confirmed, confirmAttempts := 0, provenOffset := proven } := by
  have habsorb : absorbVerdict config cs true = cs := by
    simp [absorbVerdict, normalizeBest, hphase, isBackoff]
  have hclear : baselineFailed config cs true = false := by
    simp [baselineFailed]
  rw [advanceCore, if_neg (by simp [hphase])]
  simp only [habsorb, hclear, hphase, Bool.false_eq_true, if_false]
  obtain ⟨proven, hproven⟩ := recordProven_core (advancePhase config cs true) true
  refine ⟨proven, ?_⟩
  simpa [isBackoff, advancePhase, hphase, advanceConfirming] using hproven

/-- A failed confirmation pauses at the baseline, retries, or is given up. -/
theorem advanceCore_confirming_fail (hdir : Directed.IsDirection config.direction)
    (hphase : cs.phase = .confirming) :
    config.depth cs.currentOffset ≤ config.depth cs.baselineOffset ∧
        advanceCore config cs false = { core := cs, paused := true } ∨
      config.depth cs.baselineOffset < config.depth cs.currentOffset ∧
        (advanceCore config cs false =
            { core := { cs with confirmAttempts := cs.confirmAttempts + 1 } } ∨
          advanceCore config cs false =
            { core := { cs with
                confirmAttempts := cs.confirmAttempts + 1
                phase := .failedConfirm } }) := by
  have habsorb : absorbVerdict config cs false = cs := by
    simp [absorbVerdict, normalizeBest, hphase, isBackoff]
  have hguard : baselineFailed config cs false =
      atOrPastBaseline config cs.currentOffset cs := by
    simp [baselineFailed, hphase]
  rw [advanceCore, if_neg (by simp [hphase])]
  simp only [habsorb, hguard, atOrPastBaseline, atOrPast_iff hdir, Bool.false_and,
    Bool.false_eq_true, if_false, recordProven_false]
  by_cases hfloor : config.depth cs.currentOffset ≤ config.depth cs.baselineOffset
  · exact .inl ⟨hfloor, by rw [if_pos hfloor]⟩
  · refine .inr ⟨not_le.mp hfloor, ?_⟩
    rw [if_neg hfloor]
    simp only [advancePhase, hphase, advanceConfirming, Bool.false_eq_true, if_false]
    split_ifs
    · exact .inr rfl
    · left
      rw [← hphase]

/-- A back-off core as a verdict finds it. -/
def backoffKnown (cs : CoreState) : CoreState :=
  { cs with bestOffset := some (cs.bestOffset.getD cs.baselineOffset) }

theorem normalizeBest_backoff (hbackoff : isBackoff cs.phase = true) :
    normalizeBest cs = backoffKnown cs := by
  rw [normalizeBest, backoffKnown]
  cases hbest : cs.bestOffset with
  | none => simp [hbackoff]
  | some best =>
      obtain ⟨_, _⟩ := cs
      simp_all

/-- The own step of a back-off phase. -/
def backoffStepOf (config : TunerConfig) (cs : CoreState) (passed : Bool) : CoreState :=
  if cs.phase = .backoffPreconfirm then
    if passed then preconfirmPass config cs else preconfirmFail config cs
  else
    if passed then backoffConfirmPass config cs else backoffConfirmFail config cs

theorem advancePhase_backoff (hbackoff : isBackoff cs.phase = true) (passed : Bool) :
    (advancePhase config cs passed).core = backoffStepOf config cs passed := by
  rcases isBackoff_iff.mp hbackoff with hphase | hphase <;>
    simp [advancePhase, backoffStepOf, hphase]

/-- A back-off failure tightens the bounds, and pauses at the baseline or steps back. -/
theorem advanceCore_backoff_fail (hdir : Directed.IsDirection config.direction)
    (hbackoff : isBackoff cs.phase = true) :
    config.depth cs.currentOffset ≤ config.depth cs.baselineOffset ∧
        advanceCore config cs false =
          { core := recordCrash config (backoffKnown cs), paused := true } ∨
      config.depth cs.baselineOffset < config.depth cs.currentOffset ∧
        (advanceCore config cs false).core =
          backoffStepOf config (recordCrash config (backoffKnown cs)) false := by
  have hannealing : cs.phase ≠ .annealing := by
    rintro hphase
    simp [hphase, isBackoff] at hbackoff
  have hknown : isBackoff (backoffKnown cs).phase = true := hbackoff
  have hrecorded : isBackoff (recordCrash config (backoffKnown cs)).phase = true := hbackoff
  have habsorb : absorbVerdict config cs false = recordCrash config (backoffKnown cs) := by
    simp [absorbVerdict, normalizeBest_backoff hbackoff, hknown, recordBackoffFail_eq hdir]
  have hguard : baselineFailed config (recordCrash config (backoffKnown cs)) false = true ↔
      config.depth cs.currentOffset ≤ config.depth cs.baselineOffset := by
    simp only [baselineFailed, hrecorded, Bool.not_false, Bool.or_true, Bool.true_and,
      atOrPastBaseline, atOrPast_iff hdir]
    rfl
  rw [advanceCore, if_neg hannealing]
  simp only [habsorb, Bool.false_and, Bool.false_eq_true, if_false, recordProven_false]
  by_cases hfloor : config.depth cs.currentOffset ≤ config.depth cs.baselineOffset
  · exact .inl ⟨hfloor, by rw [if_pos (hguard.mpr hfloor)]⟩
  · refine .inr ⟨not_le.mp hfloor, ?_⟩
    rw [if_neg (mt hguard.mp hfloor)]
    exact advancePhase_backoff hrecorded false

/-- A back-off pass is contradicted by the fail bound, or takes its own step. -/
theorem advanceCore_backoff_pass (hdir : Directed.IsDirection config.direction)
    (hbackoff : isBackoff cs.phase = true) :
    (∃ outcome, handleContradictoryPass config (backoffKnown cs) = some outcome ∧
        advanceCore config cs true = outcome) ∨
      (∀ bound, cs.backoffFailBound = some bound →
        config.depth cs.currentOffset < config.depth bound) ∧
      ∃ proven, (advanceCore config cs true).core =
        { backoffStepOf config (backoffKnown cs) true with provenOffset := proven } := by
  have hannealing : cs.phase ≠ .annealing := by
    rintro hphase
    simp [hphase, isBackoff] at hbackoff
  have hknown : isBackoff (backoffKnown cs).phase = true := hbackoff
  have habsorb : absorbVerdict config cs true = backoffKnown cs := by
    simp [absorbVerdict, normalizeBest_backoff hbackoff]
  have hclear : baselineFailed config (backoffKnown cs) true = false := by
    simp [baselineFailed]
  rw [advanceCore, if_neg hannealing]
  simp only [habsorb, hclear, hknown, Bool.and_self, Bool.false_eq_true, if_false, if_true]
  cases hcontra : handleContradictoryPass config (backoffKnown cs) with
  | some outcome => exact .inl ⟨outcome, rfl, rfl⟩
  | none =>
      right
      rw [handleContradictoryPass_eq_none hdir] at hcontra
      obtain ⟨proven, hproven⟩ :=
        recordProven_core (advancePhase config (backoffKnown cs) true) true
      rw [advancePhase_backoff hknown] at hproven
      exact ⟨hcontra, proven, hproven⟩

end Tuner
end CoreCycler
