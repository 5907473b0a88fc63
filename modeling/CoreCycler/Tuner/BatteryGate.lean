import CoreCycler.Tuner.Battery
import CoreCycler.Tuner.Verdict

/-!
# The battery gate

`GateWatch` runs a core's battery next to the rows logged since the core entered
its phase at its offset, which the engine itself keeps nowhere.  As long as no step
moves the core without giving the cursor up, the regimes before the cursor are
among those rows, whichever order is in force; so a PASS advances the core only with
every required regime passed where it is.
-/

namespace CoreCycler
namespace Tuner

open Library StepSystem

/-! ## Watching a core -/

/-- Two states of a core in one phase at one offset. -/
def SamePlace (cs other : CoreState) : Prop :=
  other.phase = cs.phase ∧ other.currentOffset = cs.currentOffset

instance (cs other : CoreState) : Decidable (SamePlace cs other) :=
  inferInstanceAs (Decidable (_ ∧ _))

/-- A battery, and the rows logged since the core entered its phase at its offset. -/
structure GateWatch where
  engine : BatteryState
  since : List TestRow := []
deriving DecidableEq, Repr

namespace GateWatch

/-- The watch after a step of the engine: a core that moves starts over. -/
def follow (watch : GateWatch) (next : BatteryState) : GateWatch :=
  { engine := next
    since :=
      if SamePlace watch.engine.core next.core then
        watch.since ++ next.log.drop watch.engine.log.length
      else [] }

end GateWatch

/-- One core's battery under watch. -/
def gateSystem (config : TunerConfig) : StepSystem GateWatch BatteryEvent where
  Start watch := ∃ coreId seed readBack,
    watch = { engine := { core := startCore config coreId seed readBack } }
  step watch event := (stepBattery config watch.engine event).map watch.follow

/-- The batteries of a session; an event belongs to one of its cores. -/
abbrev batterySession (Core : Type*) [DecidableEq Core] (config : TunerConfig) :
    StepSystem (Core → GateWatch) (Core × BatteryEvent) :=
  (gateSystem config).indexed Core

/-- Some row records a PASS of the regime at the offset. -/
def PassedAt (rows : List TestRow) (offset : Int) (regime : String) : Prop :=
  ∃ row ∈ rows, row.passed = true ∧ row.offset = offset ∧ row.workload.regime = some regime

instance (rows : List TestRow) (offset : Int) : DecidablePred (PassedAt rows offset) :=
  fun _ => inferInstanceAs (Decidable (∃ row ∈ rows, _))

/-- What an offset has to survive in a phase: the coarse subset in coarse search, every
regime the battery covers otherwise. -/
def requiredRegimes (config : TunerConfig) (phase : TunerPhase) : List String :=
  if phase = .coarseSearch then config.coarseRegimes
  else config.battery.filterMap WorkloadEntry.regime

/-- The steps that move no core whose cursor is past its first regime without giving the
cursor up. -/
def KeepsBattery (config : TunerConfig) (watch : GateWatch) : BatteryEvent → Prop
  | .verdict verdict =>
      slotAnswer config watch.engine verdict = .suspect →
        watch.engine.core.batteryIndex = 0 ∨ watch.engine.core.phase = .annealing ∨
          baselineFailed config watch.engine.core false = true ∨
          watch.engine.core.phase = .confirming ∧
            (watch.engine.core.confirmAttempts : Int) + 1 < config.maxConfirmRetries
  | .reengage survived =>
      watch.engine.core.batteryIndex = 0 ∨
        config.isMoreAggressive watch.engine.core.currentOffset survived = false
  | _ => True

variable {config : TunerConfig}

/-! ## What a valid configuration promises -/

theorem Regime.eq_value_of_ofValue? {text : String} {regime : Regime}
    (hsome : Regime.ofValue? text = some regime) : text = regime.value := by
  have hfound := List.find?_some hsome
  simpa using (beq_iff_eq.mp hfound).symm

theorem workloadErrors_regime {name : String} {index : Nat} {entry : WorkloadEntry}
    (hnil : workloadErrors name index entry = []) :
    ∃ regime : Regime, entry.regime = some regime.value := by
  rw [workloadErrors] at hnil
  cases hregime : entry.regime.bind Regime.ofValue? with
  | none => simp [hregime] at hnil
  | some regime =>
      obtain ⟨text, htext, hvalue⟩ := Option.bind_eq_some_iff.mp hregime
      exact ⟨regime, by rw [htext, Regime.eq_value_of_ofValue? hvalue]⟩

theorem mem_battery_of_covered {battery : List WorkloadEntry} {text : String}
    (hcovered : text ∈ (regimesCovered battery).map Regime.value) :
    text ∈ battery.filterMap WorkloadEntry.regime := by
  obtain ⟨regime, hregime, rfl⟩ := List.mem_map.mp hcovered
  obtain ⟨entry, hentry, hbind⟩ := List.mem_filterMap.mp hregime
  obtain ⟨text, htext, hvalue⟩ := Option.bind_eq_some_iff.mp hbind
  rw [← Regime.eq_value_of_ofValue? hvalue]
  exact List.mem_filterMap.mpr ⟨entry, hentry, htext⟩

namespace TunerConfig

theorem Valid.batteryErrors_eq_nil (hvalid : config.Valid) : config.batteryErrors = [] := by
  simp only [Valid, validate, List.append_eq_nil_iff] at hvalid
  tauto

theorem Valid.battery_entry (hvalid : config.Valid) {entry : WorkloadEntry}
    (hentry : entry ∈ config.battery) : ∃ index, workloadErrors "battery" index entry = [] := by
  have hnil := hvalid.batteryErrors_eq_nil
  rw [batteryErrors, List.append_eq_nil_iff] at hnil
  obtain ⟨index, hindex, rfl⟩ := List.mem_iff_getElem.mp hentry
  exact ⟨index, List.flatMap_eq_nil_iff.mp hnil.1 (config.battery[index], index)
    (List.mem_iff_getElem.mpr ⟨index, by simpa using hindex, by simp⟩)⟩

theorem Valid.coarseErrors_eq_nil (hvalid : config.Valid) : config.coarseErrors = [] := by
  have hnil := hvalid.batteryErrors_eq_nil
  rw [batteryErrors, List.append_eq_nil_iff] at hnil
  obtain ⟨hentries, hrest⟩ := hnil
  by_cases hempty : config.battery = []
  · simp [hempty] at hrest
  · simp only [hempty, hentries, if_false, ne_eq, not_true_eq_false,
      List.append_eq_nil_iff] at hrest
    exact hrest.2

theorem Valid.coarse (hvalid : config.Valid) :
    config.coarseRegimes.Nodup ∧
      ∀ regime ∈ config.coarseRegimes,
        regime ∈ config.battery.filterMap WorkloadEntry.regime := by
  have hnil := hvalid.coarseErrors_eq_nil
  simp only [coarseErrors] at hnil
  split_ifs at hnil with hnone hinvalid
  · exact absurd (List.map_eq_nil_iff.mp hnil) hinvalid
  · simp only [List.append_eq_nil_iff, errorIf_eq_nil, decide_eq_false_iff_not, not_not,
      Bool.not_eq_false', decide_eq_true_eq] at hnil
    obtain ⟨hnodup, hmissing⟩ := hnil
    refine ⟨hnodup, fun regime hregime => mem_battery_of_covered ?_⟩
    by_contra huncovered
    have hmem : regime ∈ sortedText (config.coarseRegimes.dedup.filter
        (· ∉ (regimesCovered config.battery).map Regime.value)) := by
      rw [sortedText, List.mem_insertionSort, List.mem_filter, List.mem_dedup]
      exact ⟨hregime, by simpa using huncovered⟩
    rw [hmissing] at hmem
    cases hmem

/-- Every required regime has a place in the order. -/
theorem Valid.eligible_of_required (hvalid : config.Valid) {phase : TunerPhase}
    {regime : String} (hrequired : regime ∈ requiredRegimes config phase) :
    regime ∈ eligibleRegimes config phase := by
  rw [eligibleRegimes, List.mem_filter, decide_eq_true_eq]
  simp only [requiredRegimes, wantedRegimes] at hrequired ⊢
  split_ifs at hrequired ⊢
  · exact ⟨hrequired, hvalid.coarse.2 regime hrequired⟩
  · refine ⟨?_, hrequired⟩
    obtain ⟨entry, hentry, htext⟩ := List.mem_filterMap.mp hrequired
    obtain ⟨index, hnil⟩ := hvalid.battery_entry hentry
    obtain ⟨known, hknown⟩ := workloadErrors_regime hnil
    rw [htext, Option.some.injEq] at hknown
    exact List.mem_map.mpr ⟨known, Regime.mem_all known, hknown.symm⟩

theorem Valid.nodup_eligible (hvalid : config.Valid) (phase : TunerPhase) :
    (eligibleRegimes config phase).Nodup := by
  refine List.Nodup.filter _ ?_
  rw [wantedRegimes]
  split_ifs
  · exact hvalid.coarse.1
  · decide

end TunerConfig

/-! ## The cursor through a verdict -/

section Cursor

variable {cs : CoreState}

theorem advancePhase_batteryIndex (config : TunerConfig) (cs : CoreState) (passed : Bool) :
    (advancePhase config cs passed).core.batteryIndex = cs.batteryIndex := by
  cases hphase : cs.phase with
  | notStarted => simp [advancePhase, hphase, advanceNotStarted]
  | coarseSearch =>
      simp only [advancePhase, hphase, advanceCoarse]
      grind
  | fineSearch =>
      simp only [advancePhase, hphase, advanceFine]
      grind
  | settled =>
      simp only [advancePhase, hphase, advanceSettled]
      grind
  | confirming =>
      simp only [advancePhase, hphase, advanceConfirming]
      grind
  | confirmed => simp [advancePhase, hphase]
  | annealing => simp [advancePhase, hphase]
  | failedConfirm =>
      simp only [advancePhase, hphase, advanceFailedConfirm]
      grind
  | backoffPreconfirm =>
      simp only [advancePhase, hphase, preconfirmPass, preconfirmFail]
      grind
  | backoffConfirming =>
      simp only [advancePhase, hphase, backoffConfirmPass, backoffConfirmFail]
      grind

theorem absorbVerdict_batteryIndex (config : TunerConfig) (cs : CoreState) (passed : Bool) :
    (absorbVerdict config cs passed).batteryIndex = cs.batteryIndex := by
  simp only [absorbVerdict, normalizeBest, recordBackoffFail]
  split_ifs <;> rfl

theorem baselineFailed_absorbVerdict (config : TunerConfig) (cs : CoreState) (passed : Bool) :
    baselineFailed config (absorbVerdict config cs passed) passed =
      baselineFailed config cs passed := by
  simp only [absorbVerdict, normalizeBest, recordBackoffFail]
  split_ifs <;> rfl

theorem handleContradictoryPass_batteryIndex {outcome : Outcome}
    (hsome : handleContradictoryPass config cs = some outcome) :
    outcome.core.batteryIndex = cs.batteryIndex := by
  rw [handleContradictoryPass] at hsome
  split at hsome
  · cases hsome
  · simp only [Option.ite_none_left_eq_some] at hsome
    obtain ⟨-, hsome⟩ := hsome
    split_ifs at hsome <;> obtain rfl := Option.some.inj hsome <;> rfl

theorem recordProven_batteryIndex (outcome : Outcome) (passed : Bool) :
    (recordProven outcome passed).core.batteryIndex = outcome.core.batteryIndex := by
  rw [recordProven]
  split_ifs <;> rfl

/-- Outside annealing a verdict leaves the cursor alone. -/
theorem advanceCore_batteryIndex (hphase : cs.phase ≠ .annealing) (passed : Bool) :
    (advanceCore config cs passed).core.batteryIndex = cs.batteryIndex := by
  have habsorb := absorbVerdict_batteryIndex config cs passed
  rw [advanceCore, if_neg hphase]
  simp only
  split_ifs with hbaseline hcheck
  · exact habsorb
  · cases hcontradictory : handleContradictoryPass config (absorbVerdict config cs passed) with
    | some outcome => exact (handleContradictoryPass_batteryIndex hcontradictory).trans habsorb
    | none =>
        exact (recordProven_batteryIndex _ _).trans
          ((advancePhase_batteryIndex _ _ _).trans habsorb)
  · exact (recordProven_batteryIndex _ _).trans ((advancePhase_batteryIndex _ _ _).trans habsorb)

theorem advanceCore_zeroCursor (hzero : cs.batteryIndex = 0) (passed : Bool) :
    (advanceCore config cs passed).core.batteryIndex = 0 := by
  by_cases hannealing : cs.phase = .annealing
  · rw [advanceCore, if_pos hannealing]
    rfl
  · exact (advanceCore_batteryIndex hannealing passed).trans hzero

theorem prepareSlot_of_stepped (hstepped : isStepped cs.phase = true) :
    prepareSlot config cs = cs := by
  simp only [isStepped, decide_eq_true_eq] at hstepped
  have hstarted : cs.phase ≠ .notStarted := by rintro hphase; simp [hphase] at hstepped
  have hsettled : ¬ (cs.phase = .settled ∨ cs.phase = .failedConfirm) := by
    rintro (hphase | hphase) <;> simp [hphase] at hstepped
  rw [prepareSlot, if_neg hstarted, leaveSettled, if_neg hsettled]

theorem prepareSlot_zeroCursor (hzero : cs.batteryIndex = 0) :
    (prepareSlot config cs).batteryIndex = 0 := by
  have hfirst : (if cs.phase = .notStarted then (advanceCore config cs false).core
      else cs).batteryIndex = 0 := by
    split_ifs
    · exact advanceCore_zeroCursor hzero false
    · exact hzero
  rw [prepareSlot, leaveSettled]
  split_ifs at hfirst ⊢
  all_goals first
    | exact advanceCore_zeroCursor hfirst false
    | exact hfirst

theorem applyCrashPenalty_batteryIndex (config : TunerConfig) (cs : CoreState)
    (steps : Option Int) (countCrash : Bool) :
    (applyCrashPenalty config cs steps countCrash).core.batteryIndex = 0 := by
  simp only [applyCrashPenalty, recordCrash, retreatFromCrash, demoteBest]
  split_ifs <;> rfl

theorem applyCrashPenalty_orderDropped (config : TunerConfig) (cs : CoreState)
    (steps : Option Int) (countCrash : Bool) :
    (applyCrashPenalty config cs steps countCrash).orderDropped = true := by
  simp only [applyCrashPenalty]
  split_ifs <;> rfl

theorem backoffCore_batteryIndex {core : CoreState} (hsome : backoffCore config cs = some core) :
    core.batteryIndex = cs.batteryIndex := by
  rw [backoffCore] at hsome
  cases hbest : cs.bestOffset with
  | none => simp [hbest] at hsome
  | some best =>
      simp only [hbest, Option.ite_none_left_eq_some, Option.some.injEq] at hsome
      obtain ⟨-, rfl⟩ := hsome
      rfl

/-- The verdicts that leave a core where it is. -/
theorem advanceCore_samePlace (hphase : cs.phase ≠ .annealing)
    (hstays : baselineFailed config cs false = true ∨
      cs.phase = .confirming ∧ (cs.confirmAttempts : Int) + 1 < config.maxConfirmRetries) :
    SamePlace cs (advanceCore config cs false).core := by
  rw [advanceCore, if_neg hphase]
  simp only [baselineFailed_absorbVerdict, Bool.false_and, Bool.false_eq_true, if_false,
    recordProven_false]
  rcases hstays with hbaseline | ⟨hconfirming, hretry⟩
  · rw [if_pos hbaseline]
    simp only [SamePlace, absorbVerdict, normalizeBest, recordBackoffFail]
    split_ifs <;> exact ⟨rfl, rfl⟩
  · have habsorb : absorbVerdict config cs false = cs := by
      simp [absorbVerdict, normalizeBest, hconfirming, isBackoff]
    have hstay : ¬ config.maxConfirmRetries ≤ (cs.confirmAttempts : Int) + 1 := not_le.mpr hretry
    rw [habsorb]
    split_ifs
    · exact ⟨rfl, rfl⟩
    · simp [SamePlace, advancePhase, advanceConfirming, hconfirming, hstay]

end Cursor

/-! ## The order in force -/

theorem passKey_eq_some {eligible : List String} {offset : Int} {row : TestRow}
    {regime : String} :
    passKey eligible offset row = some regime ↔
      row.passed = true ∧ row.offset = offset ∧ row.workload.regime = some regime ∧
        regime ∈ eligible := by
  simp only [passKey, Option.ite_none_right_eq_some, Option.filter_eq_some_iff,
    decide_eq_true_eq]
  tauto

theorem PassedAt.mono {rows other : List TestRow} {offset : Int} {regime : String}
    (hpassed : PassedAt rows offset regime) (hsub : rows ⊆ other) :
    PassedAt other offset regime := by
  obtain ⟨row, hrow, hpass⟩ := hpassed
  exact ⟨row, hsub hrow, hpass⟩

/-- The order, cursor and log of a watched core fit together. -/
structure GateKept (config : TunerConfig) (watch : GateWatch) : Prop where
  /-- Only a core under test is past its first regime. -/
  resting : isStepped watch.engine.core.phase = false → watch.engine.core.batteryIndex = 0
  recorded : watch.since <:+ watch.engine.log
  /-- Enough regimes passed here to derive the order again. -/
  banked : Checklist.Banked (PassedAt watch.since watch.engine.core.currentOffset)
    (eligibleRegimes config watch.engine.core.phase) watch.engine.core.batteryIndex
  ordered : ∀ order, watch.engine.frozen = some order →
    Checklist.IsOrder (eligibleRegimes config order.phase) order.regimes
  /-- A frozen order that fits has passed regimes before the cursor. -/
  earned : ∀ order, watch.engine.frozen = some order → order.fits watch.engine.core = true →
    Checklist.Earned (PassedAt watch.since watch.engine.core.currentOffset)
      watch.engine.core.batteryIndex order.regimes

namespace GateKept

variable {watch : GateWatch}

theorem derived (hkept : GateKept config watch) (hvalid : config.Valid)
    (weights : String → ℚ) :
    Checklist.IsOrder (eligibleRegimes config watch.engine.core.phase)
        (derivedRegimes config watch.engine weights) ∧
      Checklist.Earned (PassedAt watch.since watch.engine.core.currentOffset)
        watch.engine.core.batteryIndex (derivedRegimes config watch.engine weights) := by
  have hnodup := hvalid.nodup_eligible watch.engine.core.phase
  rcases Nat.eq_zero_or_pos watch.engine.core.batteryIndex with hzero | hpos
  · refine ⟨⟨?_, fun regime => ?_⟩, by simp [hzero]⟩
    · rw [derivedRegimes, completedRegimes, hzero]
      simpa [(List.perm_insertionSort _ _).nodup_iff] using hnodup
    · simp [derivedRegimes, completedRegimes, hzero]
  · obtain ⟨older, hlog⟩ := hkept.recorded
    have hreversed : watch.engine.log.reverse = watch.since.reverse ++ older.reverse := by
      rw [← hlog, List.reverse_append]
    rw [derivedRegimes, completedRegimes, if_pos hpos, hreversed]
    refine ⟨Checklist.isOrder_resumed _ (fun row regime hkey => (passKey_eq_some.mp hkey).2.2.2)
      ?_ ?_, Checklist.earned_resumed _ _ hkept.banked ?_ ?_⟩
    · rw [(List.perm_insertionSort _ _).nodup_iff]
      exact hnodup.filter _
    · simp
    · rintro regime ⟨row, hrow, hpassed, hoffset, hregime⟩ heligible
      exact ⟨row, List.mem_reverse.mpr hrow,
        passKey_eq_some.mpr ⟨hpassed, hoffset, hregime, heligible⟩⟩
    · intro row hrow regime hkey
      obtain ⟨hpassed, hoffset, hregime, -⟩ := passKey_eq_some.mp hkey
      exact ⟨row, List.mem_reverse.mp hrow, hpassed, hoffset, hregime⟩

/-- The order a slot goes by. -/
theorem inForce (hkept : GateKept config watch) (hvalid : config.Valid)
    (weights : String → ℚ) :
    Checklist.IsOrder (eligibleRegimes config watch.engine.core.phase)
        (slotRegimes config watch.engine weights) ∧
      Checklist.Earned (PassedAt watch.since watch.engine.core.currentOffset)
        watch.engine.core.batteryIndex (slotRegimes config watch.engine weights) := by
  rw [slotRegimes]
  cases hfrozen : watch.engine.frozen with
  | none => exact hkept.derived hvalid weights
  | some order =>
      simp only
      split_ifs with hfits
      · refine ⟨?_, hkept.earned order hfrozen hfits⟩
        have hphase : order.phase = watch.engine.core.phase := by
          simp only [BatteryOrder.fits, decide_eq_true_eq] at hfits
          exact hfits.1
        exact hphase ▸ hkept.ordered order hfrozen
      · exact hkept.derived hvalid weights

/-- Looking the order up keeps everything together. -/
theorem freeze (hkept : GateKept config watch) (hvalid : config.Valid)
    (weights : String → ℚ) :
    GateKept config { watch with engine := freezeOrder config watch.engine weights } := by
  obtain ⟨horder, hearned⟩ := hkept.inForce hvalid weights
  refine ⟨hkept.resting, hkept.recorded, hkept.banked, ?_, ?_⟩
  · rintro order hfrozen
    obtain rfl := Option.some.inj hfrozen
    exact horder
  · rintro order hfrozen -
    obtain rfl := Option.some.inj hfrozen
    exact hearned

/-- So does logging rows. -/
theorem log (hkept : GateKept config watch) (rows : List TestRow) :
    GateKept config
      { engine := { watch.engine with log := watch.engine.log ++ rows }
        since := watch.since ++ rows } := by
  have hmono : ∀ regime, PassedAt watch.since watch.engine.core.currentOffset regime →
      PassedAt (watch.since ++ rows) watch.engine.core.currentOffset regime :=
    fun regime hpassed => hpassed.mono (List.subset_append_left _ _)
  obtain ⟨older, hlog⟩ := hkept.recorded
  refine ⟨hkept.resting, ⟨older, ?_⟩, hkept.banked.mono hmono, hkept.ordered,
    fun order hfrozen hfits => (hkept.earned order hfrozen hfits).mono hmono⟩
  simp [← hlog]

/-- A core that gives its cursor up may go anywhere. -/
theorem reset (hkept : GateKept config watch) {next : BatteryState}
    (hlog : next.log = watch.engine.log) (hcursor : next.core.batteryIndex = 0)
    (hfrozen : ∀ order, next.frozen = some order → watch.engine.frozen = some order) :
    GateKept config
      { engine := next
        since := if SamePlace watch.engine.core next.core then watch.since else [] } := by
  refine ⟨fun _ => hcursor, ?_, by simp [hcursor],
    fun order horder => hkept.ordered order (hfrozen order horder), by simp [hcursor]⟩
  rw [hlog]
  split_ifs
  · exact hkept.recorded
  · exact List.nil_suffix

/-- A core that stays where it is may keep its cursor. -/
theorem stay (hkept : GateKept config watch) {next : BatteryState}
    (hlog : next.log = watch.engine.log) (hplace : SamePlace watch.engine.core next.core)
    (hcursor : next.core.batteryIndex = watch.engine.core.batteryIndex)
    (hfrozen : ∀ order, next.frozen = some order → watch.engine.frozen = some order) :
    GateKept config { watch with engine := next } := by
  obtain ⟨hphase, hoffset⟩ := hplace
  refine ⟨?_, ?_, ?_, fun order horder => hkept.ordered order (hfrozen order horder), ?_⟩
  · simpa only [hphase, hcursor] using hkept.resting
  · simpa only [hlog] using hkept.recorded
  · simpa only [hphase, hoffset, hcursor] using hkept.banked
  · intro order horder hfits
    simp only [BatteryOrder.fits, hphase, hoffset] at hfits
    simpa only [hoffset, hcursor] using hkept.earned order (hfrozen order horder) hfits

/-- A PASS at the cursor moves it on. -/
theorem advanceCursor (hkept : GateKept config watch) {order : BatteryOrder}
    (hfrozen : watch.engine.frozen = some order) (hfits : order.fits watch.engine.core = true)
    (hstepped : isStepped watch.engine.core.phase = true)
    (hroom : watch.engine.core.batteryIndex + 1 < order.regimes.length) {regime : String}
    (hregime : order.regimes[watch.engine.core.batteryIndex]? = some regime)
    (hpassed : PassedAt watch.since watch.engine.core.currentOffset regime) :
    GateKept config
      { watch with
        engine := { watch.engine with
          core := { watch.engine.core with
            batteryIndex := watch.engine.core.batteryIndex + 1 } } } := by
  have hearned := (hkept.earned order hfrozen hfits).next hregime hpassed
  have horder := hkept.ordered order hfrozen
  have hphase : order.phase = watch.engine.core.phase := by
    simp only [BatteryOrder.fits, decide_eq_true_eq] at hfits
    exact hfits.1
  refine ⟨fun hrest => ?_, hkept.recorded, ?_, hkept.ordered, ?_⟩
  · simp [hstepped] at hrest
  · exact hearned.banked (hphase ▸ horder) hroom.le
  · intro other hother hother_fits
    obtain rfl : order = other := Option.some.inj (hfrozen.symm.trans hother)
    exact hearned

end GateKept

/-! ## Steps -/

section Steps

variable {watch next : GateWatch}

/-- What a step that only appends to the log leads to. -/
theorem follow_eq (watch : GateWatch) {next : BatteryState} (rows : List TestRow)
    (hlog : next.log = watch.engine.log ++ rows) :
    watch.follow next =
      { engine := next
        since := if SamePlace watch.engine.core next.core then watch.since ++ rows else [] } := by
  rw [GateWatch.follow, hlog, List.drop_left]

/-- The watch once the row of a slot is logged. -/
def GateWatch.logged (config : TunerConfig) (watch : GateWatch) (verdict : SlotVerdict) :
    GateWatch :=
  { engine := logSlot config watch.engine verdict
    since := watch.since ++ [slotRow config watch.engine verdict] }

theorem GateKept.logged (hkept : GateKept config watch) (hvalid : config.Valid)
    (verdict : SlotVerdict) : GateKept config (watch.logged config verdict) :=
  (hkept.freeze hvalid verdict.weights).log [slotRow config watch.engine verdict]

/-- The regime of a slot is the one at the cursor. -/
theorem activeRegime_of_lt {state : BatteryState} {weights : String → ℚ}
    (hlt : state.core.batteryIndex < (slotRegimes config state weights).length) :
    activeRegime config state weights =
      (slotRegimes config state weights)[state.core.batteryIndex]? := by
  simp only [activeRegime, Nat.mod_eq_of_lt hlt]

/-- A passed slot passes the regime at the cursor. -/
theorem passedAt_logged {verdict : SlotVerdict} (hpassed : verdict.passed = true)
    {regime : String} (hregime : activeRegime config watch.engine verdict.weights = some regime) :
    PassedAt (watch.logged config verdict).since watch.engine.core.currentOffset regime :=
  ⟨slotRow config watch.engine verdict, by simp [GateWatch.logged], hpassed, rfl, hregime⟩

theorem slotAnswer_nextRegime {state : BatteryState} {verdict : SlotVerdict}
    (hanswer : slotAnswer config state verdict = .nextRegime) :
    verdict.passed = true ∧
      state.core.batteryIndex + 1 < (slotRegimes config state verdict.weights).length := by
  simp only [slotAnswer] at hanswer
  split_ifs at hanswer with hstops hsuspect hmore
  exact hmore

theorem slotAnswer_advance {state : BatteryState} {verdict : SlotVerdict} {passed : Bool}
    (hanswer : slotAnswer config state verdict = .advance passed) :
    verdict.passed = passed ∧
      (verdict.passed = true →
        (slotRegimes config state verdict.weights).length ≤ state.core.batteryIndex + 1) := by
  simp only [slotAnswer] at hanswer
  split_ifs at hanswer with hstops hsuspect hmore
  exact ⟨SlotAnswer.advance.inj hanswer, fun hpassed => not_lt.mp fun hlt => hmore ⟨hpassed, hlt⟩⟩

theorem slotAnswer_suspect {state : BatteryState} {verdict : SlotVerdict}
    (hanswer : slotAnswer config state verdict = .suspect) : verdict.passed = false := by
  simp only [slotAnswer] at hanswer
  split_ifs at hanswer with hstops hsuspect
  simp only [Bool.and_eq_true, Bool.not_eq_true'] at hsuspect
  exact hsuspect.1

theorem resetAndAdvance_batteryIndex (config : TunerConfig) (state : BatteryState)
    (passed : Bool) : (resetAndAdvance config state passed).core.batteryIndex = 0 := by
  have hzero : ({ state.core with batteryIndex := 0 } : CoreState).batteryIndex = 0 := rfl
  exact advanceCore_zeroCursor hzero passed

theorem GateKept.answered (hkept : GateKept config watch) (hvalid : config.Valid)
    {verdict : SlotVerdict} (hstepped : isStepped watch.engine.core.phase = true)
    (hkeeps : KeepsBattery config watch (.verdict verdict)) :
    GateKept config (watch.follow (answerSlot config watch.engine verdict)) := by
  have hlogged := hkept.logged hvalid verdict
  have hdropped : ∀ outcome : Outcome, ∀ order,
      ((logSlot config watch.engine verdict).moved outcome).frozen = some order →
        (watch.logged config verdict).engine.frozen = some order := by
    intro outcome order hfrozen
    simp only [BatteryState.moved, Option.ite_none_left_eq_some] at hfrozen
    exact hfrozen.2
  rw [answerSlot]
  cases hanswer : slotAnswer config watch.engine verdict with
  | stopped =>
      rw [follow_eq watch [slotRow config watch.engine verdict] rfl, if_pos ⟨rfl, rfl⟩]
      exact hlogged
  | suspect =>
      change GateKept config (watch.follow ((logSlot config watch.engine verdict).moved
        (advanceCore config watch.engine.core false)))
      rw [follow_eq watch [slotRow config watch.engine verdict] rfl]
      by_cases hannealing : watch.engine.core.phase = .annealing
      · refine hlogged.reset rfl ?_ (hdropped _)
        rw [BatteryState.moved_core, advanceCore, if_pos hannealing]
        rfl
      · have hcursor : (advanceCore config watch.engine.core false).core.batteryIndex =
            watch.engine.core.batteryIndex := advanceCore_batteryIndex hannealing false
        rcases hkeeps hanswer with hzero | hphase | hstays
        · exact hlogged.reset rfl (advanceCore_zeroCursor hzero false) (hdropped _)
        · exact absurd hphase hannealing
        · have hplace := advanceCore_samePlace hannealing hstays
          rw [BatteryState.moved_core, if_pos hplace]
          exact hlogged.stay rfl hplace hcursor (hdropped _)
  | nextRegime =>
      obtain ⟨hpassed, hroom⟩ := slotAnswer_nextRegime hanswer
      have hregime := activeRegime_of_lt (Nat.lt_of_succ_lt hroom)
      rw [List.getElem?_eq_getElem (Nat.lt_of_succ_lt hroom)] at hregime
      rw [follow_eq watch [slotRow config watch.engine verdict] rfl, if_pos ⟨rfl, rfl⟩]
      exact hlogged.advanceCursor rfl (by simp [BatteryOrder.fits, GateWatch.logged, logSlot,
        freezeOrder]) hstepped hroom (List.getElem?_eq_getElem _) (passedAt_logged hpassed hregime)
  | advance passed =>
      change GateKept config (watch.follow (resetAndAdvance config
        (logSlot config watch.engine verdict) passed))
      rw [follow_eq watch [slotRow config watch.engine verdict] rfl]
      exact hlogged.reset rfl (resetAndAdvance_batteryIndex _ _ _) (by simp)

/-- A reconciliation leaves the core alone or rolls a confirmed core back. -/
theorem reconcileConfirmed_cases (config : TunerConfig) (state : BatteryState) :
    reconcileConfirmed config state = state.core ∨
      state.core.phase = .confirmed ∧ ∃ proof,
        reconcileConfirmed config state = rollbackCoreToEvidence state.core proof := by
  simp only [reconcileConfirmed]
  cases state.core.bestOffset with
  | none => exact .inl rfl
  | some best =>
      simp only
      split_ifs with hkeep
      · exact .inl rfl
      · simp only [not_or, not_not] at hkeep
        exact .inr ⟨hkeep.1, _, rfl⟩

/-- A step that gives the cursor up and logs nothing. -/
theorem GateKept.followReset (hkept : GateKept config watch) {next : BatteryState}
    (hlog : next.log = watch.engine.log) (hcursor : next.core.batteryIndex = 0)
    (hfrozen : ∀ order, next.frozen = some order → watch.engine.frozen = some order) :
    GateKept config (watch.follow next) := by
  rw [follow_eq watch [] (by simpa using hlog), List.append_nil]
  exact hkept.reset hlog hcursor hfrozen

/-- A step that leaves the core where it is and logs nothing. -/
theorem GateKept.followStay (hkept : GateKept config watch) {next : BatteryState}
    (hlog : next.log = watch.engine.log) (hplace : SamePlace watch.engine.core next.core)
    (hcursor : next.core.batteryIndex = watch.engine.core.batteryIndex)
    (hfrozen : ∀ order, next.frozen = some order → watch.engine.frozen = some order) :
    GateKept config (watch.follow next) := by
  rw [follow_eq watch [] (by simpa using hlog), List.append_nil, if_pos hplace]
  exact hkept.stay hlog hplace hcursor hfrozen

theorem gateKept_step (hvalid : config.Valid) {event : BatteryEvent}
    (hkept : GateKept config watch) (hkeeps : KeepsBattery config watch event)
    (hstep : (gateSystem config).step watch event = some next) : GateKept config next := by
  obtain ⟨engine, hengine, rfl⟩ := Option.map_eq_some_iff.mp hstep
  cases event with
  | launch weights =>
      simp only [stepBattery, Option.ite_none_left_eq_some, Option.some.injEq] at hengine
      obtain ⟨-, rfl⟩ := hengine
      have hprepared : GateKept config (watch.follow
          { watch.engine with core := prepareSlot config watch.engine.core }) := by
        -- A slot of a stepped core repeats its test; any other begins a battery at its first
        -- workload.
        by_cases hstepped : isStepped watch.engine.core.phase = true
        · rw [prepareSlot_of_stepped hstepped]
          exact hkept.followStay rfl ⟨rfl, rfl⟩ rfl fun _ horder => horder
        · exact hkept.followReset rfl
            (prepareSlot_zeroCursor (hkept.resting (by simpa using hstepped)))
            fun _ horder => horder
      exact hprepared.freeze hvalid weights
  | verdict verdict =>
      simp only [stepBattery, Option.ite_none_right_eq_some, Option.some.injEq] at hengine
      obtain ⟨hstepped, rfl⟩ := hengine
      exact hkept.answered hvalid hstepped hkeeps
  | account inTest crashCooldown thermalAborts cumulativeTestTime suspicion =>
      obtain rfl := Option.some.inj hengine
      exact hkept.followStay rfl ⟨rfl, rfl⟩ rfl fun _ horder => horder
  | record row =>
      obtain rfl := Option.some.inj hengine
      rw [follow_eq watch [row] rfl, if_pos ⟨rfl, rfl⟩]
      exact hkept.log [row]
  | consult weights =>
      obtain rfl := Option.some.inj hengine
      rw [follow_eq watch [] (by simp [freezeOrder]), if_pos ⟨rfl, rfl⟩, List.append_nil]
      exact hkept.freeze hvalid weights
  | unanswered =>
      simp only [stepBattery, Option.ite_none_right_eq_some, Option.some.injEq] at hengine
      obtain ⟨-, rfl⟩ := hengine
      exact hkept.followReset rfl (resetAndAdvance_batteryIndex _ _ _) (by simp)
  | penalty resident steps countCrash =>
      simp only [stepBattery, Option.ite_none_right_eq_some, Option.some.injEq] at hengine
      obtain ⟨-, rfl⟩ := hengine
      exact hkept.followReset rfl (applyCrashPenalty_batteryIndex _ _ _ _)
        (by simp [BatteryState.moved, penalizeResident, applyCrashPenalty_orderDropped])
  | anneal hours =>
      simp only [stepBattery, Option.ite_none_right_eq_some, Option.some.injEq] at hengine
      obtain ⟨-, rfl⟩ := hengine
      exact hkept.followReset rfl rfl (by simp [BatteryState.moved, startAnneal])
  | backOff =>
      simp only [stepBattery, Option.ite_none_right_eq_some, Option.map_eq_some_iff] at hengine
      obtain ⟨hphase, core, hcore, rfl⟩ := hengine
      have hzero := hkept.resting (by simp [hphase, isStepped])
      exact hkept.followReset rfl ((backoffCore_batteryIndex hcore).trans hzero)
        fun _ horder => horder
  | reengage survived =>
      obtain rfl := Option.some.inj hengine
      -- Pulling a core to where it is tested already leaves it at its place in the battery.
      rcases hkeeps with hzero | hground
      · exact hkept.followReset rfl hzero fun _ horder => horder
      · have hplace : SamePlace watch.engine.core (reengageCore config watch.engine.core survived) :=
          ⟨rfl, by simp [reengageCore, pullTo, hground]⟩
        exact hkept.followStay rfl hplace rfl fun _ horder => horder
  | reconcile =>
      obtain rfl := Option.some.inj hengine
      -- Only a confirmed core is sent back, and it has no battery open.
      rcases reconcileConfirmed_cases config watch.engine with hsame | ⟨hphase, proof, hback⟩
      · rw [hsame]
        exact hkept.followStay rfl ⟨rfl, rfl⟩ rfl fun _ horder => horder
      · rw [hback]
        have hzero := hkept.resting (by simp [hphase, isStepped])
        exact hkept.followReset rfl hzero fun _ horder => horder
  | revalidate =>
      simp only [stepBattery, Option.ite_none_right_eq_some, Option.map_eq_some_iff] at hengine
      obtain ⟨-, best, -, rfl⟩ := hengine
      exact hkept.followReset rfl rfl (by simp)
  | restart =>
      obtain rfl := Option.some.inj hengine
      exact hkept.followStay rfl ⟨rfl, rfl⟩ rfl (by simp)

theorem gateKept_start (hstart : (gateSystem config).Start watch) : GateKept config watch := by
  obtain ⟨coreId, seed, readBack, rfl⟩ := hstart
  have hcursor : (startCore config coreId seed readBack).batteryIndex = 0 := by
    simp only [startCore]
    split <;> rfl
  exact ⟨fun _ => hcursor, List.nil_suffix, by simp [hcursor], by simp, by simp⟩

/-- The gate opens only on an order worked off to its end. -/
theorem GateKept.gate (hkept : GateKept config watch) (hvalid : config.Valid)
    {verdict : SlotVerdict} (hanswer : slotAnswer config watch.engine verdict = .advance true) :
    ∀ regime ∈ eligibleRegimes config watch.engine.core.phase,
      PassedAt (watch.logged config verdict).since watch.engine.core.currentOffset regime := by
  obtain ⟨hpassed, hend⟩ := slotAnswer_advance hanswer
  obtain ⟨horder, hbefore⟩ := hkept.inForce hvalid verdict.weights
  have hearned := hbefore.mono fun regime (hearlier : PassedAt _ _ regime) =>
    hearlier.mono (List.subset_append_left _ [slotRow config watch.engine verdict])
  by_cases hlt : watch.engine.core.batteryIndex <
      (slotRegimes config watch.engine verdict.weights).length
  · have hregime := activeRegime_of_lt hlt
    rw [List.getElem?_eq_getElem hlt] at hregime
    exact (hearned.next (List.getElem?_eq_getElem hlt)
      (passedAt_logged hpassed hregime)).complete horder (hend hpassed)
  · exact hearned.complete horder (not_lt.mp hlt)

end Steps

/-- **The battery gate.**  In sessions whose steps move no core past its first regime
without giving the cursor up, a PASS advances a core only when every regime required in
its phase has a recorded PASS at the core's offset since it came there. -/
theorem battery_gate (Core : Type*) [DecidableEq Core] (hvalid : config.Valid)
    {cores : Core → GateWatch}
    (hreach : (batterySession Core config).ReachableBy (eachStep (KeepsBattery config)) cores)
    (core : Core) {verdict : SlotVerdict}
    (hanswer : slotAnswer config (cores core).engine verdict = .advance true) :
    ∀ regime ∈ requiredRegimes config (cores core).engine.core.phase,
      PassedAt ((cores core).logged config verdict).since
        (cores core).engine.core.currentOffset regime := by
  have hkept : GateKept config (cores core) :=
    (hreach.component core).invariant (fun _ hstart => gateKept_start hstart)
      fun _ _ _ hkept hkeeps hstep => gateKept_step hvalid hkept hkeeps hstep
  intro regime hrequired
  exact hkept.gate hvalid hanswer regime (hvalid.eligible_of_required hrequired)

/-- A slot that passes. -/
def passing : SlotVerdict := { passed := true }

/-- A core of the default search that passed the first of its two coarse regimes. -/
def firstRegimePassed : List (Unit × BatteryEvent) :=
  [((), .launch fun _ => 0), ((), .verdict passing)]

/-- The next PASS advances the core, with both coarse regimes passed at -5. -/
theorem battery_gate_coarse :
    ∃ cores : Unit → GateWatch,
      (batterySession Unit {}).ReachableBy (eachStep (KeepsBattery {})) cores ∧
        slotAnswer {} (cores ()).engine passing = .advance true ∧
        ∀ regime ∈ requiredRegimes {} (cores ()).engine.core.phase,
          PassedAt ((cores ()).logged {} passing).since
            (cores ()).engine.core.currentOffset regime := by
  have hstart : (batterySession Unit {}).Start
      fun _ => { engine := { core := startCore {} 0 none none } } :=
    fun _ => ⟨0, none, none, rfl⟩
  have hallowed : ∀ event ∈ firstRegimePassed, ∀ cores : Unit → GateWatch,
      eachStep (KeepsBattery {}) cores event := by
    intro event hevent cores
    simp only [firstRegimePassed, List.mem_cons, List.not_mem_nil, or_false] at hevent
    rcases hevent with rfl | rfl
    · trivial
    · exact fun hanswer => absurd (slotAnswer_suspect hanswer) (by decide)
  obtain ⟨cores, hreach, hanswer⟩ := exists_reachableBy (eachStep (KeepsBattery {}))
    (fun cores => slotAnswer {} (cores ()).engine passing) (.advance true) firstRegimePassed
    hstart hallowed (by decide +kernel)
  exact ⟨cores, hreach, hanswer, battery_gate Unit (by decide +kernel) hreach () hanswer⟩

/-- A core passes the first coarse regime at -5; the session is quarantined, and re-opened
in a new process with only stock survived. -/
def reengagedMidBattery : List BatteryEvent :=
  [.launch fun _ => 0, .verdict passing, .restart, .reengage 0, .launch fun _ => 0]

/-- The core advances at stock on one PASS, with the first coarse regime never run there. -/
theorem reengaged_cursor_skips_regime :
    ({} : TunerConfig).Valid ∧ ∃ watch, (gateSystem {}).Reachable watch ∧
      slotAnswer {} watch.engine passing = .advance true ∧
        ∃ regime ∈ requiredRegimes {} watch.engine.core.phase,
          ¬ PassedAt (watch.logged {} passing).since watch.engine.core.currentOffset regime := by
  refine ⟨by decide +kernel, ?_⟩
  have hstart : (gateSystem {}).Start { engine := { core := startCore {} 0 none none } } :=
    ⟨0, none, none, rfl⟩
  obtain ⟨watch, hreach, hview⟩ := exists_reachable
    (fun watch : GateWatch => (slotAnswer {} watch.engine passing, watch.engine.core.phase,
      decide (PassedAt (watch.logged {} passing).since watch.engine.core.currentOffset "current")))
    (.advance true, .coarseSearch, false) reengagedMidBattery hstart (by decide +kernel)
  simp only [Prod.mk.injEq, decide_eq_false_iff_not] at hview
  obtain ⟨hanswer, hphase, hunpassed⟩ := hview
  exact ⟨watch, hreach, hanswer, "current", by rw [hphase]; decide, hunpassed⟩

end Tuner
end CoreCycler
