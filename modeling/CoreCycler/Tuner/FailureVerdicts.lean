import CoreCycler.Tuner.CoreRuns

/-!
# What a failure can certify

A FAIL confirms a core in one way only: a failed annealing probe goes back to the
best offset.  That is right as long as the probe lies deeper than the best
offset, which every step keeps except a penalty or a re-engagement that brings an
annealing core back to it.
-/

namespace CoreCycler
namespace Tuner

open Library TunerConfig

/-- A FAIL leads to confirmation out of an annealing probe only. -/
theorem Track.Failed.of_confirmed {fine cap : Int} {before after : Track} {paused : Bool}
    (hfailed : Track.Failed fine cap before paused after) (hphase : after.phase = .confirmed) :
    before.phase = .annealing := by
  cases hfailed with
  | annealFailed hannealing => exact hannealing
  | backoffPaused hbackoff =>
      have hsame : before.phase = .confirmed := hphase
      simp [hsame, isBackoff] at hbackoff
  | _ => simp_all [Track.backedOff, Track.tightened]

variable {config : TunerConfig} {cs next : CoreState}

/-- A verdict certifies the offset it was about: the core ends confirmed with a best
offset at least as aggressive. -/
def Certifies (config : TunerConfig) (before after : CoreState) : Prop :=
  after.phase = .confirmed ∧ ∃ best, after.bestOffset = some best ∧
    config.depth before.currentOffset ≤ config.depth best

/-- The steps that bring an annealing core back to its best offset while the probe is
still open. -/
def Overtakes (config : TunerConfig) (cs : CoreState) (event : CoreEvent) : Prop :=
  cs.phase = .annealing ∧ ∃ best, cs.bestOffset = some best ∧
    match event with
    | .penalty resident steps _ => penaltyLanding config cs resident steps ≤ config.depth best
    | .reengage survived => config.depth survived ≤ config.depth best
    | _ => False

/-- An open probe lies deeper than the best offset. -/
def ProbeAhead (track : Track) : Prop :=
  track.phase = .annealing → ∃ best, track.best = some best ∧ best < track.current

/-! ## One failure -/

/-- The automatic steps confirm nothing. -/
theorem automatic_not_confirmed
    (hphase : cs.phase = .notStarted ∨ cs.phase = .settled ∨ cs.phase = .failedConfirm) :
    (advanceCore config cs false).core.phase ≠ .confirmed := by
  obtain ⟨proven, hadvance⟩ := advanceCore_unguarded config cs
    (by rcases hphase with h | h | h <;> simp [h]) (by rcases hphase with h | h | h <;> simp [h])
    (by rcases hphase with h | h | h <;> simp [h, isBackoff]) false
  rw [hadvance]
  rcases hphase with hphase | hphase | hphase
  · simp [advancePhase, hphase, advanceNotStarted]
  · simp only [advancePhase, hphase, advanceSettled]
    split <;> simp
  · simp only [advancePhase, hphase, advanceFailedConfirm]
    split <;> [split_ifs; skip] <;> simp

/-- A FAIL confirms a core out of an annealing probe only. -/
theorem annealing_of_fail_confirmed (hvalid : config.Valid) (hopen : cs.phase ≠ .confirmed)
    (hconfirmed : (advanceCore config cs false).core.phase = .confirmed) :
    cs.phase = .annealing := by
  by_cases hstepped : isStepped cs.phase = true
  · obtain ⟨paused, hfailed, -⟩ := advanceCore_failed hvalid hstepped
    exact hfailed.of_confirmed hconfirmed
  · refine absurd hconfirmed (automatic_not_confirmed ?_)
    simp only [isStepped, decide_eq_true_eq, not_or] at hstepped
    cases hphase : cs.phase <;> simp_all

theorem failCertifies_iff (hvalid : config.Valid) (hopen : cs.phase ≠ .confirmed) :
    Certifies config cs (advanceCore config cs false).core ↔
      cs.phase = .annealing ∧ ∃ best, cs.bestOffset = some best ∧
        config.depth cs.currentOffset ≤ config.depth best := by
  constructor
  · rintro ⟨hconfirmed, best, hbest, hdeep⟩
    have hannealing := annealing_of_fail_confirmed hvalid hopen hconfirmed
    refine ⟨hannealing, best, ?_, hdeep⟩
    rw [advanceCore_annealing hannealing] at hbest
    exact hbest
  · rintro ⟨hphase, best, hbest, hdeep⟩
    rw [advanceCore_annealing hphase]
    exact ⟨rfl, best, hbest, hdeep⟩

/-! ## Runs -/

theorem Track.Passed.not_annealing {fine cap : Int} {before after : Track}
    (hpassed : Track.Passed fine cap before after) : after.phase ≠ .annealing := by
  cases hpassed with
  | deeper hphase => rcases hphase with hphase | hphase <;> simp [hphase]
  | _ => simp

theorem Track.Failed.not_annealing {fine cap : Int} {before after : Track} {paused : Bool}
    (hfailed : Track.Failed fine cap before paused after) : after.phase ≠ .annealing := by
  cases hfailed with
  | backoffPaused hbackoff =>
      rcases isBackoff_iff.mp hbackoff with hphase | hphase <;>
        simp [Track.backedOff, Track.tightened, hphase]
  | _ => simp_all [Track.backedOff, Track.tightened]

/-- Where a penalty lands an annealing core decides whether its probe stays ahead. -/
theorem Track.penalized_annealing {before : Track} (resident back : Int)
    (hphase : before.phase = .annealing) {best : Int} (hbest : before.best = some best) :
    (before.penalized resident back).phase = .annealing ∧
      ∃ after, (before.penalized resident back).best = some after ∧
        (after < (before.penalized resident back).current ↔
          best < if resident = 0 then 0 else before.landing resident back) := by
  by_cases hstock : resident = 0
  · simp [Track.penalized, hstock, hphase, hbest]
  · simp [Track.penalized, hstock, hphase, hbest, forcedIntoBackoff]

theorem Track.left_annealing {fine : Int} {before : Track}
    (hphase : (before.left fine).phase = .annealing) : before.left fine = before := by
  rw [Track.left] at hphase ⊢
  split at hphase <;> simp_all

theorem Track.penalized_from_annealing {before : Track} {resident back : Int}
    (hphase : (before.penalized resident back).phase = .annealing) :
    before.phase = .annealing := by
  by_cases hstock : resident = 0
  · simpa [Track.penalized, hstock] using hphase
  · simp only [Track.penalized, if_neg hstock] at hphase
    split_ifs at hphase
    exact hphase

theorem probeAhead_step (hvalid : config.Valid) {event : CoreEvent}
    (hahead : ProbeAhead (trackOf config cs)) (hclear : ¬ Overtakes config cs event)
    (hstep : stepCore config cs event = some next) : ProbeAhead (trackOf config next) := by
  have hdir := hvalid.direction
  have hfine := hvalid.fineStep_pos
  have hmove := stepCore_track hvalid hstep
  intro hprobing
  cases event with
  | launch =>
      obtain ⟨-, htrack⟩ := hmove
      rw [htrack] at hprobing ⊢
      split_ifs at hprobing ⊢ with hphase
      · simp [Track.begun] at hprobing
      · have hsame := Track.left_annealing hprobing
        rw [hsame] at hprobing ⊢
        exact hahead hprobing
  | verdict passed =>
      cases passed with
      | true => exact absurd hprobing hmove.2.not_annealing
      | false =>
          obtain ⟨-, paused, hfailed⟩ := hmove
          exact absurd hprobing hfailed.not_annealing
  | penalty resident steps countCrash =>
      obtain ⟨-, htrack⟩ := hmove
      rw [htrack] at hprobing ⊢
      -- A penalty that does not overtake the probe leaves it ahead.
      have hannealing := Track.penalized_from_annealing hprobing
      obtain ⟨best, hbest, -⟩ := hahead hannealing
      obtain ⟨-, after, hafter, hkept⟩ := Track.penalized_annealing _ _ hannealing hbest
      refine ⟨after, hafter, hkept.mpr ?_⟩
      obtain ⟨offset, hoffset, rfl⟩ := Option.map_eq_some_iff.mp hbest
      rw [← penaltyLanding_eq hdir]
      by_contra hnot
      exact hclear ⟨hannealing, offset, hoffset, not_lt.mp hnot⟩
  | anneal hours =>
      obtain ⟨-, ⟨best, hbest, -⟩, htrack⟩ := hmove
      rw [htrack]
      exact ⟨best, hbest, by simp only [Track.probing, Track.known, hbest, Option.getD_some]; omega⟩
  | backOff =>
      obtain ⟨hphase, -, htrack⟩ := hmove
      simp [htrack, Track.validationStep, hphase] at hprobing
  | reengage survived =>
      have htrack : trackOf config next = (trackOf config cs).pulled (config.depth survived) := hmove
      rw [htrack] at hprobing ⊢
      obtain ⟨best, hbest, hlt⟩ := hahead hprobing
      refine ⟨min best (config.depth survived), by simp [Track.pulled, hbest], ?_⟩
      obtain ⟨offset, hoffset, rfl⟩ := Option.map_eq_some_iff.mp hbest
      have hbeyond : config.depth offset < config.depth survived := by
        by_contra hnot
        exact hclear ⟨hprobing, offset, hoffset, not_lt.mp hnot⟩
      simp only [Track.pulled]
      omega
  | rollback mostAggressivePass =>
      obtain ⟨-, htrack⟩ := hmove
      simp [htrack, Track.rolledBack] at hprobing
  | revalidate =>
      obtain ⟨-, best, -, htrack⟩ := hmove
      simp [htrack, Track.reopenedAt] at hprobing
  | account books =>
      have htrack : trackOf config next = trackOf config cs := hmove
      rw [htrack] at hprobing ⊢
      exact hahead hprobing

theorem probeAhead_start (hvalid : config.Valid) (hstart : (coreSystem config).Start cs) :
    ProbeAhead (trackOf config cs) := by
  obtain ⟨coreId, seed, readBack, rfl⟩ := hstart
  obtain ⟨track, htrack, -, -, -, hphase⟩ := startCore_track hvalid coreId seed readBack
  intro hprobing
  rw [htrack] at hprobing
  rcases hphase with hphase | ⟨hphase, -⟩ <;> simp [hphase] at hprobing

/-- After a step that overtakes an open probe, the next FAIL certifies it. -/
theorem certifies_of_overtakes (hvalid : config.Valid) {event : CoreEvent}
    (hovertakes : Overtakes config cs event) (hstep : stepCore config cs event = some next) :
    next.phase = .annealing ∧ Certifies config next (advanceCore config next false).core := by
  have hdir := hvalid.direction
  have hmove := stepCore_track hvalid hstep
  obtain ⟨hannealing, best, hbest, hback⟩ := hovertakes
  have hbest' : (trackOf config cs).best = some (config.depth best) := by simp [trackOf, hbest]
  have hcaught : (trackOf config next).phase = .annealing ∧
      ∃ after, (trackOf config next).best = some after ∧ (trackOf config next).current ≤ after := by
    cases event with
    | penalty resident steps countCrash =>
        obtain ⟨-, htrack⟩ := hmove
        obtain ⟨hphase, after, hafter, hkept⟩ :=
          Track.penalized_annealing (config.depth resident) (penaltyDepth config resident steps)
            hannealing hbest'
        rw [htrack]
        refine ⟨hphase, after, hafter, ?_⟩
        rw [← penaltyLanding_eq hdir] at hkept
        exact not_lt.mp (mt hkept.mp (not_lt.mpr hback))
    | reengage survived =>
        have htrack : trackOf config next =
          (trackOf config cs).pulled (config.depth survived) := hmove
        rw [htrack]
        refine ⟨hannealing, min (config.depth best) (config.depth survived), ?_, ?_⟩
        · simp [Track.pulled, hbest']
        · have hle : config.depth survived ≤ config.depth best := hback
          simp only [Track.pulled]
          omega
    | launch => exact hback.elim
    | verdict passed => exact hback.elim
    | anneal hours => exact hback.elim
    | backOff => exact hback.elim
    | rollback mostAggressivePass => exact hback.elim
    | revalidate => exact hback.elim
    | account books => exact hback.elim
  obtain ⟨hphase, after, hafter, hdeep⟩ := hcaught
  obtain ⟨offset, hoffset, rfl⟩ := Option.map_eq_some_iff.mp hafter
  have hopen : next.phase ≠ .confirmed := by
    rw [show next.phase = .annealing from hphase]
    simp
  exact ⟨hphase, (failCertifies_iff hvalid hopen).mpr ⟨hphase, offset, hoffset, hdeep⟩⟩

/-- **When a failure certifies an offset.**  A FAIL certifies the offset it was about
exactly on an annealing core that is no deeper than its best offset.  In sessions
without an overtaking step no FAIL certifies anything, and after an overtaking step
the next FAIL does. -/
theorem failure_certifies_iff_overtaken (Core : Type*) [DecidableEq Core]
    (hvalid : config.Valid) :
    (∀ cs : CoreState, cs.phase ≠ .confirmed →
      (Certifies config cs (advanceCore config cs false).core ↔
        cs.phase = .annealing ∧ ∃ best, cs.bestOffset = some best ∧
          config.depth cs.currentOffset ≤ config.depth best)) ∧
    (∀ cores : Core → CoreState,
      (sessionSystem Core config).ReachableBy
        (StepSystem.eachStep fun cs event => ¬ Overtakes config cs event) cores →
      ∀ core, (cores core).phase ≠ .confirmed →
        ¬ Certifies config (cores core) (advanceCore config (cores core) false).core) ∧
    ∀ (cs next : CoreState) (event : CoreEvent), Overtakes config cs event →
      stepCore config cs event = some next →
      next.phase = .annealing ∧
        Certifies config next (advanceCore config next false).core := by
  refine ⟨fun cs hopen => failCertifies_iff hvalid hopen, ?_, fun cs next event hovertakes hstep =>
    certifies_of_overtakes hvalid hovertakes hstep⟩
  intro cores hreach core hopen hcertifies
  have hahead : ProbeAhead (trackOf config (cores core)) :=
    (hreach.component core).invariant (fun _ hstart => probeAhead_start hvalid hstart)
      (fun _ _ _ hinv hallowed hstep => probeAhead_step hvalid hinv hallowed hstep)
  obtain ⟨hannealing, best, hbest, hdeep⟩ := (failCertifies_iff hvalid hopen).mp hcertifies
  obtain ⟨ahead, hahead', hlt⟩ := hahead hannealing
  simp only [trackOf, hbest, Option.map_some, Option.some.injEq] at hahead'
  have hshort : ahead < config.depth (cores core).currentOffset := hlt
  omega

/-- A core of the default search on its way to an annealing probe at -6, and the blame
for a crash of that probe. -/
def blamedProbeEvents : List CoreEvent :=
  [ .launch, .verdict true, .verdict false, .verdict false, .launch, .verdict true, .anneal 6,
    .penalty (-6) (some 1) true ]

/-- The blame steps the open probe back to -5, and the next FAIL at -5 confirms -5. -/
theorem blamed_probe_certifies :
    ({} : TunerConfig).Valid ∧
      ∃ cs, (coreSystem {}).Reachable cs ∧ cs.phase = .annealing ∧ cs.currentOffset = -5 ∧
        Certifies {} cs (advanceCore {} cs false).core := by
  refine ⟨by decide +kernel, ?_⟩
  have hstart : (coreSystem {}).Start (startCore {} 0 none none) := ⟨0, none, none, rfl⟩
  obtain ⟨cs, hreach, hview⟩ := StepSystem.exists_reachable
    (fun cs => (cs.phase, cs.currentOffset, (advanceCore {} cs false).core.phase,
      (advanceCore {} cs false).core.bestOffset))
    (.annealing, -5, .confirmed, some (-5)) blamedProbeEvents hstart (by decide +kernel)
  simp only [Prod.mk.injEq] at hview
  obtain ⟨hphase, hcurrent, hconfirmed, hbest⟩ := hview
  refine ⟨cs, hreach, hphase, hcurrent, hconfirmed, -5, hbest, ?_⟩
  rw [hcurrent]

/-- A core of the default search is confirmed at -5, and a probe is opened at -6. -/
def openProbeEvents : List (Unit × CoreEvent) :=
  [.launch, .verdict true, .verdict false, .verdict false, .launch, .verdict true,
    .anneal 6].map ((), ·)

/-- The open probe fails without certifying anything; once the blame for a crash overtakes it, the
next failure certifies. -/
theorem failure_certifies_iff_overtaken_default :
    ∃ cores : Unit → CoreState,
      (sessionSystem Unit {}).ReachableBy
        (StepSystem.eachStep fun cs event => ¬ Overtakes {} cs event) cores ∧
      (cores ()).phase = .annealing ∧ (cores ()).currentOffset = -6 ∧
      ¬ Certifies {} (cores ()) (advanceCore {} (cores ()) false).core ∧
      ∃ next, stepCore {} (cores ()) (.penalty (-6) (some 1) true) = some next ∧
        Certifies {} next (advanceCore {} next false).core := by
  have hvalid : ({} : TunerConfig).Valid := by decide +kernel
  have hstart : (sessionSystem Unit {}).Start fun _ => startCore {} 0 none none :=
    fun _ => ⟨0, none, none, rfl⟩
  obtain ⟨cores, hreach, hview⟩ := StepSystem.exists_reachableBy
    (StepSystem.eachStep fun cs event => ¬ Overtakes {} cs event)
    (fun cores => ((cores ()).phase, (cores ()).currentOffset, (cores ()).bestOffset,
      penaltyLanding {} (cores ()) (-6) (some 1)))
    (.annealing, -6, some (-5), 5) openProbeEvents hstart
    (by simp [openProbeEvents, StepSystem.eachStep, Overtakes]) (by decide +kernel)
  simp only [Prod.mk.injEq] at hview
  obtain ⟨hphase, hcurrent, hbest, hlanding⟩ := hview
  obtain ⟨-, hrun, hovertaken⟩ := failure_certifies_iff_overtaken Unit hvalid
  have hovertakes : Overtakes {} (cores ()) (.penalty (-6) (some 1) true) :=
    ⟨hphase, -5, hbest, by simp [hlanding]; decide⟩
  refine ⟨cores, hreach, hphase, hcurrent, hrun cores hreach () (by simp [hphase]), _, rfl, ?_⟩
  exact (hovertaken _ _ _ hovertakes rfl).2

end Tuner
end CoreCycler
