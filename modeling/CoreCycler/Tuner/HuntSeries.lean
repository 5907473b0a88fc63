import CoreCycler.Tuner.HuntReboots
import CoreCycler.Tuner.HuntSlots

/-!
# A probe is answered by its series

A probe is asked for as many launches as its series has.  What is left of the series is kept
in memory, what has been done in the row, and a resume puts the two together again.
`HuntInv` is what the event loop keeps: the row counts the clean launches of the probe in
flight, and a launch that runs has the rest of the series in memory.
-/

namespace CoreCycler
namespace Tuner

open Bisect Engine Library Library.EventLoop Library.GroupTesting
open TunerConfig
open Library.Rounding (binary64)
open UnnamedEvidence (lacksVerdict)

/-! ## The length of a series -/

theorem TunerConfig.Valid.onsetLaunchSeconds_pos {config : TunerConfig} (hvalid : config.Valid) :
    10 ≤ config.onsetLaunchSeconds := by
  have hbound : (10 : ℚ) ≤ config.onsetLaunchSeconds :=
    (hvalid.bound (List.mem_of_getElem? (i := 28) rfl)).1
  exact_mod_cast hbound

theorem TunerConfig.Valid.maxUnattributedCrashHunts_pos {config : TunerConfig}
    (hvalid : config.Valid) : 1 ≤ config.maxUnattributedCrashHunts := by
  have hbound : (1 : ℚ) ≤ config.maxUnattributedCrashHunts :=
    (hvalid.bound (List.mem_of_getElem? (i := 15) rfl)).1
  exact_mod_cast hbound

theorem one_le_probeSeconds (pow : ℚ → Nat → ℚ) (hunt : HuntState) (base : Int)
    (mttfMultiplier levelMultiplier : ℚ) (onsetSeconds : Int) :
    1 ≤ probeSeconds pow hunt base mttfMultiplier levelMultiplier onsetSeconds :=
  le_max_left _ _

theorem one_le_onsetLaunches {budget minLaunch : Int} (hbudget : 1 ≤ budget)
    (hlaunch : 1 ≤ minLaunch) (hunt : HuntState) (onsetSeconds : Int) (mttfMultiplier : ℚ) :
    1 ≤ (onsetLaunches hunt budget onsetSeconds minLaunch mttfMultiplier).2 := by
  unfold onsetLaunches
  dsimp only
  split
  · exact le_rfl
  · generalize ⌈binary64.round (hunt.observedFailureTime * mttfMultiplier)⌉ = timed
    have hone : 1 ≤ min budget (max minLaunch timed) :=
      le_min hbudget (le_max_of_le_left hlaunch)
    have hquotient : (1 : ℚ) ≤ budget / (min budget (max minLaunch timed) : Int) := by
      rw [one_le_div (by exact_mod_cast hone)]
      exact_mod_cast min_le_left _ _
    -- A quotient of one at least stays so when it is rounded.
    generalize (budget : ℚ) / (min budget (max minLaunch timed) : Int) = quotient at hquotient ⊢
    have hrounded := binary64.zpow_le_round (show -1074 ≤ (0 : Int) by decide)
      ((zpow_zero (2 : ℚ)).le.trans hquotient)
    rw [zpow_zero] at hrounded
    exact Int.one_le_ceil_iff.mpr (lt_of_lt_of_le zero_lt_one hrounded)

/-- A series has a launch at least. -/
theorem launches_pos (context : HuntContext) (hunt : HuntState) :
    1 ≤ launches context hunt := by
  have honset := context.valid.onsetLaunchSeconds_pos
  have hcount : 1 ≤ (launchSeries context hunt).2 := by
    unfold launchSeries
    exact one_le_onsetLaunches (one_le_probeSeconds context.pow hunt _ _ _ _) (by omega) hunt _ _
  unfold launches
  omega

/-! ## Hunts in the row -/

/-- The search does not look at the crash context of a hunt. -/
theorem Bisect.Represents.withProgress {hunt : HuntState} {search : Search CoreId}
    (hrep : Represents hunt search) (launchesDone : Nat) (armed : Bool)
    (vector : List (CoreId × Int)) (workload : Option WorkloadEntry) :
    Represents { hunt with launchesDone, armed, vector, workload } search := by
  refine ⟨hrep.pending_eq, hrep.found_eq, hrep.retries_eq, ?_⟩
  have hshape := hrep.shape
  cases hfocus : search.focus <;> rw [hfocus] at hshape <;> exact hshape

/-- An open question is about some core. -/
theorem Bisect.Represents.question_ne_nil {hunt : HuntState} {search : Search CoreId}
    {limit : Nat} (hrep : Represents hunt search) (hwf : search.WellFormed limit)
    {live : List CoreId} (hquestion : search.question halving = some live) : live ≠ [] := by
  have hshape := hrep.shape
  have htwo := hwf.focus_two
  obtain ⟨focus, pending, found, retries⟩ := search
  cases focus with
  | lead probe =>
      obtain rfl : probe = live := by simpa [Search.question] using hquestion
      exact List.ne_nil_of_length_pos (by rw [hshape.2.2.1]; exact Nat.one_pos)
  | idle => simp [Search.question] at hquestion
  | left group =>
      obtain rfl : (split group).1 = live := by simpa [Search.question] using hquestion
      exact halving.left_ne_nil group (htwo group (by simp [Search.focusGroups]))
  | right group leftFailed =>
      obtain rfl : (split group).2 = live := by simpa [Search.question] using hquestion
      exact halving.right_ne_nil group (htwo group (by simp [Search.focusGroups]))
  | whole group =>
      obtain rfl : group = live := by simpa [Search.question] using hquestion
      have hlen := htwo group (by simp [Search.focusGroups])
      exact List.ne_nil_of_length_pos (by omega)
  | closed => simp [Search.question] at hquestion

namespace HuntContext

/-- The clean rounds a hunt tries. -/
def limit (context : HuntContext) : Nat := context.config.maxUnattributedCrashHunts.toNat

theorem one_le_limit (context : HuntContext) : 1 ≤ context.limit := by
  have hpos := context.valid.maxUnattributedCrashHunts_pos
  unfold limit
  omega

/-- A hunt whose row has counted `clean` launches of the probe in flight. -/
structure Counted (context : HuntContext) (clean : Nat) (hunt : HuntState) : Prop where
  sound : ∃ search, Represents hunt search ∧ search.WellFormed context.limit
  armed : hunt.armed = true → hunt.inFlight ≠ []
  idle : hunt.inFlight = [] → hunt.launchesDone = 0 ∧ clean = 0
  asked : hunt.inFlight ≠ [] → hunt.launchesDone = clean ∧ clean < launches context hunt

variable {context : HuntContext} {clean : Nat} {hunt : HuntState}

theorem Counted.disarm (hcounted : Counted context clean hunt) :
    Counted context clean { hunt with armed := false } := by
  obtain ⟨⟨search, hrep, hwf⟩, -, hidle, hasked⟩ := hcounted
  exact ⟨⟨search, hrep.withProgress _ _ _ _, hwf⟩, fun h => absurd h (by simp), hidle, hasked⟩

theorem Counted.arm (hcounted : Counted context clean hunt) (hflight : hunt.inFlight ≠ []) :
    Counted context clean { hunt with armed := true } := by
  obtain ⟨⟨search, hrep, hwf⟩, -, hidle, hasked⟩ := hcounted
  exact ⟨⟨search, hrep.withProgress _ _ _ _, hwf⟩, fun _ => hflight, hidle, hasked⟩

/-- Another clean launch, with one to follow. -/
theorem Counted.launched (hcounted : Counted context clean hunt) (hflight : hunt.inFlight ≠ [])
    (hmore : clean + 1 < launches context hunt) :
    Counted context (clean + 1) { hunt with launchesDone := hunt.launchesDone + 1 } := by
  obtain ⟨⟨search, hrep, hwf⟩, harmed, -, hasked⟩ := hcounted
  refine ⟨⟨search, hrep.withProgress _ _ _ _, hwf⟩, harmed, fun h => absurd h hflight, ?_⟩
  intro _
  exact ⟨congrArg (· + 1) (hasked hflight).1, hmore⟩

/-- An answered probe has no launches left over. -/
theorem Counted.recorded (hcounted : Counted context clean hunt) (hflight : hunt.inFlight ≠ [])
    (harmed : hunt.armed = false) (reproduced : Bool) :
    Counted context 0 (record hunt reproduced context.limit) := by
  obtain ⟨⟨search, hrep, hwf⟩, -, -, -⟩ := hcounted
  have hquestion := hrep.question_of_inFlight hflight
  have hempty := record_inFlight hunt reproduced context.limit
  have hstill : (record hunt reproduced context.limit).armed = hunt.armed :=
    congrArg (fun fields => fields.2.2.2.1) (record_context hunt reproduced context.limit)
  refine ⟨⟨_, hrep.record hwf hquestion rfl reproduced, hwf.answer reproduced⟩, ?_, ?_, ?_⟩
  · intro hset
    rw [hstill, harmed] at hset
    cases hset
  · exact fun _ => ⟨record_launchesDone hunt reproduced context.limit, rfl⟩
  · exact fun hne => absurd hempty hne

/-- The next question of a hunt: its mask is in flight, and its count goes on. -/
theorem Counted.ask (hcounted : Counted context clean hunt) {live : List CoreId}
    (hlive : (nextLiveSet hunt).1 = some live) :
    Counted context clean (nextLiveSet hunt).2 ∧ (nextLiveSet hunt).2.inFlight = live ∧
      live ≠ [] := by
  obtain ⟨⟨search, hrep, hwf⟩, harmed, hidle, hasked⟩ := hcounted
  obtain ⟨hanswer, hnext, hflight⟩ := hrep.nextLiveSet hwf
  have hwfAsk := hwf.ask context.one_le_limit
  have hne := hnext.question_ne_nil hwfAsk (hanswer.symm.trans hlive)
  have hmask := hflight live hlive
  have hlaunches := nextLiveSet_launchesDone hunt
  refine ⟨⟨⟨search.ask, hnext, hwfAsk⟩, ?_, ?_, ?_⟩, hmask, hne⟩
  · exact fun _ => hmask ▸ hne
  · exact fun hnone => absurd (hmask.symm.trans hnone) hne
  · intro _
    by_cases hprobe : hunt.inFlight = []
    · obtain ⟨hzero, rfl⟩ := hidle hprobe
      exact ⟨hlaunches.trans hzero, launches_pos context _⟩
    · have hsame : (nextLiveSet hunt).2 = hunt := by
        by_cases hdone : hunt.stage = .culprit ∨ hunt.stage = .exhausted
        · rw [nextLiveSet_of_done hdone]
        · rw [nextLiveSet_of_inFlight (by cases h : hunt.stage <;> simp_all) hprobe]
      rw [hsame]
      exact hasked hprobe

/-- A hunt with nothing to ask has no probe in flight. -/
theorem Counted.inFlight_of_done (hcounted : Counted context clean hunt)
    (hdone : (nextLiveSet hunt).1 = none) : hunt.inFlight = [] := by
  obtain ⟨⟨search, hrep, hwf⟩, -, -, -⟩ := hcounted
  by_contra hflight
  have hquestion := hrep.question_of_inFlight hflight
  have hanswer := (hrep.nextLiveSet hwf).1.symm.trans hdone
  have hsame : search.ask = search := by
    obtain ⟨focus, pending, found, retries⟩ := search
    cases focus <;> first | rfl | simp [Search.question] at hquestion
  rw [hsame, hquestion] at hanswer
  cases hanswer

/-! ## What the memory keeps -/

/-- The memory and the row agree on the hunt, and the row has counted its launches. -/
structure Kept (context : HuntContext) (memory : HuntMemory) : Prop where
  synced : memory.hunt = none ∨ memory.hunt = memory.row
  hunting : memory.hunting = true → memory.hunt ≠ none
  left : memory.launchesLeft ≠ 0 → memory.hunt ≠ none
  counted : ∀ hunt, memory.row = some hunt → Counted context memory.clean hunt
  fresh : memory.row = none → memory.clean = 0

/-- The rest of the series that a launch belongs to. -/
def Running (context : HuntContext) (memory : HuntMemory) : Prop :=
  memory.abortRequested = false → memory.hunting = true ∧ ∃ hunt, memory.row = some hunt ∧
    hunt.inFlight ≠ [] ∧
    memory.clean + 1 + memory.launchesLeft = launches context hunt

/-- Between two launches: the series goes on, or starts from what the row counted. -/
def Waiting (context : HuntContext) (memory : HuntMemory) : Prop :=
  memory.abortRequested = false → memory.hunting = true ∧
    (memory.launchesLeft = 0 ∨ ∃ hunt, memory.row = some hunt ∧ hunt.inFlight ≠ [] ∧
      memory.clean + memory.launchesLeft = launches context hunt)

/-- The mask of the probe in flight. -/
def probe (memory : HuntMemory) : List CoreId := memory.row.elim [] (·.inFlight)

/-- What a reaction leaves fits what it queues. -/
def Leaves (context : HuntContext) (memory : HuntMemory) :
    EventLoop.Next HuntTask Launch Report → Prop
  | .later .nextHuntSlot => Waiting context memory
  | .launch launch => Running context memory ∧ launch.live = probe memory
  | .fail _ => Running context memory
  | _ => True

/-- A row that no launch has armed. -/
def Disarmed (memory : HuntMemory) : Prop :=
  ∃ hunt, memory.row = some hunt ∧ hunt.armed = false

/-- What a reaction to a hunt is held to. -/
structure Good (context : HuntContext) (answers : List (List CoreId × Bool))
    (reaction : HuntReaction) : Prop where
  kept : Kept context reaction.memory
  leaves : Leaves context reaction.memory reaction.next
  bootEnd : reaction.memory.bootEnd = .same
  closed : reaction.memory.quarantined = true →
    reaction.next = .nothing ∧ Disarmed reaction.memory
  answers : reaction.memory.answers = answers

section Memory

variable {memory : HuntMemory}

theorem Kept.row_of_hunt (hkept : Kept context memory) (hhunt : memory.hunt = some hunt) :
    memory.row = some hunt := by
  rcases hkept.synced with hnone | hsame
  · rw [hhunt] at hnone
    cases hnone
  · exact hsame ▸ hhunt

theorem Kept.hunt_of_hunting (hkept : Kept context memory) (hhunting : memory.hunting = true) :
    ∃ hunt, memory.hunt = some hunt :=
  Option.ne_none_iff_exists'.mp (hkept.hunting hhunting)

/-- A hunt that is saved is in memory and in the row. -/
theorem kept_save (hleft : Counted context memory.clean hunt) :
    Kept context (memory.save hunt) where
  synced := Or.inr rfl
  hunting := fun _ => by simp [HuntMemory.save]
  left := fun _ => by simp [HuntMemory.save]
  counted := fun other hother => by
    obtain rfl := Option.some.inj hother
    exact hleft
  fresh := fun hnone => by simp [HuntMemory.save] at hnone

theorem pause_of_open (hopen : memory.quarantined = false) :
    memory.pause = { memory with paused := true } := by
  simp [HuntMemory.pause, hopen]

/-- A pause, heeded or not, sets nothing but the flag. -/
theorem pause_eq (memory : HuntMemory) :
    ∃ paused, memory.pause = { memory with paused := paused } := by
  unfold HuntMemory.pause
  split
  · exact ⟨memory.paused, rfl⟩
  · exact ⟨true, rfl⟩

theorem Kept.pause (hkept : Kept context memory) : Kept context memory.pause := by
  obtain ⟨paused, hpause⟩ := pause_eq memory
  rw [hpause]
  exact ⟨hkept.synced, hkept.hunting, hkept.left, hkept.counted, hkept.fresh⟩

theorem requeue_of_hunt (hhunt : memory.hunt = some hunt) :
    memory.requeue =
      ({ memory with launchesLeft := 0 } : HuntMemory).save { hunt with armed := false } := by
  simp [HuntMemory.requeue, hhunt]

theorem Kept.requeue (hkept : Kept context memory) : Kept context memory.requeue := by
  cases hhunt : memory.hunt with
  | none =>
      have hsame : memory.requeue = { memory with launchesLeft := 0 } := by
        simp [HuntMemory.requeue, hhunt]
      rw [hsame]
      exact ⟨hkept.synced, hkept.hunting, fun h => absurd rfl h, hkept.counted, hkept.fresh⟩
  | some hunt =>
      rw [requeue_of_hunt hhunt]
      exact kept_save (hkept.counted hunt (hkept.row_of_hunt hhunt)).disarm

theorem kept_recordProbe (hcounted : Counted context clean hunt) (hflight : hunt.inFlight ≠ [])
    (harmed : hunt.armed = false) (reproduced : Bool) :
    Kept context (memory.recordProbe context.config hunt reproduced) :=
  kept_save (hcounted.recorded hflight harmed reproduced)

end Memory

/-! ## Launching -/

section Launching

variable {memory : HuntMemory} {choice : HuntChoice}

/-- A dispatched launch has the rest of its series in memory. -/
theorem good_dispatch (hcounted : Counted context memory.clean hunt)
    (hflight : hunt.inFlight ≠ []) (hhunting : memory.hunting = true)
    (hseries : memory.clean + 1 + memory.launchesLeft = launches context hunt)
    (hboot : memory.bootEnd = .same) (hopen : memory.quarantined = false)
    {answers : List (List CoreId × Bool)} (hanswers : memory.answers = answers)
    {live : List CoreId} (hlive : hunt.inFlight = live) :
    Good context answers (context.dispatch memory hunt live choice) := by
  have hdisarmed : Kept context (memory.save { hunt with armed := false }) :=
    kept_save hcounted.disarm
  unfold dispatch
  dsimp only
  cases choice.dispatch with
  | started =>
      refine ⟨kept_save (hcounted.arm hflight), ?_, hboot, ?_, hanswers⟩
      · exact ⟨fun _ => ⟨hhunting, { hunt with armed := true }, rfl, hflight, hseries⟩, hlive.symm⟩
      · exact fun hclosed => absurd (hopen.symm.trans hclosed) (by simp)
  | failed message =>
      refine ⟨?_, ?_, hboot, ?_, hanswers⟩
      · exact ⟨hdisarmed.synced, hdisarmed.hunting, hdisarmed.left, hdisarmed.counted,
          hdisarmed.fresh⟩
      · exact fun _ => ⟨hhunting, { hunt with armed := false }, rfl, hflight, hseries⟩
      · exact fun hclosed => absurd (hopen.symm.trans hclosed) (by simp)
  | maskRejected =>
      cases choice.restored with
      | true =>
          refine ⟨hdisarmed.pause, trivial, ?_, ?_, ?_⟩ <;>
            simp only [if_true, pause_of_open (show (memory.save { hunt with
              armed := false }).quarantined = false from hopen)]
          · exact hboot
          · exact fun hclosed => absurd (hopen.symm.trans hclosed) (by simp)
          · exact hanswers
      | false =>
          refine ⟨?_, trivial, hboot, fun _ => ⟨rfl, _, rfl, rfl⟩, hanswers⟩
          exact ⟨hdisarmed.synced, hdisarmed.hunting, hdisarmed.left, hdisarmed.counted,
            hdisarmed.fresh⟩

/-- **The next launch.**  Between two launches, the engine goes on with the series, asks the
next probe, or ends the hunt. -/
theorem good_runNextHuntSlot (hkept : Kept context memory) (hwaiting : Waiting context memory)
    (hboot : memory.bootEnd = .same) (hopen : memory.quarantined = false)
    {answers : List (List CoreId × Bool)} (hanswers : memory.answers = answers) :
    Good context answers (context.runNextHuntSlot memory choice) := by
  subst hanswers
  have hstays : memory.quarantined = true → False := fun hclosed =>
    absurd (hopen.symm.trans hclosed) (by simp)
  unfold runNextHuntSlot
  split
  · next hunt hhunt hgoes =>
      obtain ⟨habort, -⟩ := Bool.or_eq_false_iff.mp hgoes
      have hrow := hkept.row_of_hunt hhunt
      have hcounted := hkept.counted hunt hrow
      obtain ⟨hhunting, hseries⟩ := hwaiting habort
      split
      · next hleft =>
          -- A series goes on: the probe in flight is launched once more.
          obtain ⟨other, hother, hflight, hrest⟩ := hseries.resolve_left hleft
          obtain rfl := Option.some.inj (hrow.symm.trans hother)
          refine good_dispatch ?_ hflight ?_ ?_ ?_ ?_ ?_ rfl
          · exact hcounted
          · exact hhunting
          · show memory.clean + 1 + (memory.launchesLeft - 1) = _
            omega
          · exact hboot
          · exact hopen
          · rfl
      · next hleft =>
          dsimp only
          split
          · next hlive =>
              -- No probe is left to ask, so the hunt is resolved.
              have hclean := (hcounted.idle (hcounted.inFlight_of_done hlive)).2
              refine ⟨⟨Or.inl rfl, fun h => absurd h (by simp), fun h => absurd h hleft, ?_, ?_⟩,
                trivial, hboot, fun hclosed => absurd hclosed hstays, rfl⟩
              · exact fun other hother => absurd hother (by simp)
              · exact fun _ => hclean
          · next live hlive =>
              obtain ⟨hasked, hmask, hne⟩ := hcounted.ask hlive
              -- A new series starts, less the launches that the row has counted.
              have hflight : (nextLiveSet hunt).2.inFlight ≠ [] := hmask ▸ hne
              obtain ⟨hdone, hlt⟩ := hasked.asked hflight
              rw [nextLiveSet_launchesDone] at hdone
              refine good_dispatch ?_ hflight ?_ ?_ ?_ ?_ ?_ hmask
              · exact hasked
              · exact hhunting
              · show memory.clean + 1 + (launches context (nextLiveSet hunt).2 - 1 -
                  min hunt.launchesDone (launches context (nextLiveSet hunt).2 - 1)) = _
                omega
              · exact hboot
              · exact hopen
              · rfl
  · split
    · next hcut =>
        -- A series that is cut off by an abort or a pause is requeued.
        have hleft : memory.launchesLeft ≠ 0 := by
          simpa using (Bool.and_eq_true_iff.mp hcut).2
        obtain ⟨hunt, hhunt⟩ := Option.ne_none_iff_exists'.mp (hkept.left hleft)
        rw [requeue_of_hunt hhunt]
        refine ⟨kept_save (hkept.counted hunt (hkept.row_of_hunt hhunt)).disarm, trivial, hboot, ?_,
          rfl⟩
        exact fun hclosed => absurd hclosed hstays
    · exact ⟨hkept, trivial, hboot, fun hclosed => absurd hclosed hstays, rfl⟩

end Launching

/-! ## Results -/

/-- A launch of the series of a probe has ended, and the probe is not armed any more. -/
structure InSeries (context : HuntContext) (memory : HuntMemory) (hunt : HuntState) : Prop where
  inMemory : memory.hunt = some hunt
  inRow : memory.row = some hunt
  hunting : memory.hunting = true
  counted : Counted context memory.clean hunt
  flight : hunt.inFlight ≠ []
  disarmed : hunt.armed = false
  series : memory.clean + 1 + memory.launchesLeft = launches context hunt
  bootEnd : memory.bootEnd = .same
  isOpen : memory.quarantined = false

section Results

variable {memory : HuntMemory} {choice : HuntChoice} {report : Report}

theorem InSeries.kept (hin : InSeries context memory hunt) : Kept context memory where
  synced := Or.inr (hin.inMemory.trans hin.inRow.symm)
  hunting := fun _ => by simp [hin.inMemory]
  left := fun _ => by simp [hin.inMemory]
  counted := fun other hother => by
    obtain rfl := Option.some.inj (hin.inRow.symm.trans hother)
    exact hin.counted
  fresh := fun hnone => by simp [hin.inRow] at hnone

theorem InSeries.closed (hin : InSeries context memory hunt) {proposition : Prop}
    (hclosed : memory.quarantined = true) : proposition :=
  absurd (hin.isOpen.symm.trans hclosed) (by simp)

/-- Flags and counters beside the series. -/
theorem InSeries.withFlags (hin : InSeries context memory hunt) (soaking paused : Bool)
    (thermalAborts apparatusFaults : Nat) :
    InSeries context { memory with soaking, paused, thermalAborts, apparatusFaults } hunt :=
  ⟨hin.inMemory, hin.inRow, hin.hunting, hin.counted, hin.flight, hin.disarmed, hin.series,
    hin.bootEnd, hin.isOpen⟩

theorem InSeries.pause (hin : InSeries context memory hunt) :
    InSeries context memory.pause hunt := by
  rw [pause_of_open hin.isOpen]
  exact hin.withFlags _ _ _ _

/-- The probe is left as it is, and nothing is queued. -/
theorem InSeries.good_stay (hin : InSeries context memory hunt) :
    Good context memory.answers { memory } :=
  ⟨hin.kept, trivial, hin.bootEnd, hin.closed, rfl⟩

theorem InSeries.good_pause (hin : InSeries context memory hunt) :
    Good context memory.answers { memory := memory.pause } := by
  have hgood := hin.pause.good_stay
  rwa [show memory.pause.answers = memory.answers by rw [pause_of_open hin.isOpen]] at hgood

/-- The memory once the probe is put back. -/
theorem InSeries.requeue_eq (hin : InSeries context memory hunt) :
    memory.requeue = { memory with launchesLeft := 0 } := by
  have hsame : ({ hunt with armed := false } : HuntState) = hunt := by rw [← hin.disarmed]
  rw [requeue_of_hunt hin.inMemory, hsame]
  unfold HuntMemory.save
  rw [hin.inMemory, hin.inRow]

/-- A probe that is put back starts over from what the row has counted. -/
theorem InSeries.good_requeue_later (hin : InSeries context memory hunt) :
    Good context memory.answers
      { memory := memory.requeue, next := .later .nextHuntSlot } := by
  have hkept := hin.kept.requeue
  rw [hin.requeue_eq] at hkept ⊢
  exact ⟨hkept, fun _ => ⟨hin.hunting, Or.inl rfl⟩, hin.bootEnd, hin.closed, rfl⟩

theorem InSeries.good_requeue_pause (hin : InSeries context memory hunt) :
    Good context memory.answers { memory := memory.requeue.pause } := by
  have hkept := hin.kept.requeue.pause
  have hpaused : memory.requeue.pause = { memory with launchesLeft := 0, paused := true } := by
    rw [hin.requeue_eq, pause_of_open (show ({ memory with launchesLeft := 0 } :
      HuntMemory).quarantined = false from hin.isOpen)]
  rw [hpaused] at hkept ⊢
  exact ⟨hkept, trivial, hin.bootEnd, hin.closed, rfl⟩

theorem InSeries.good_requeue_quarantine (hin : InSeries context memory hunt) :
    Good context memory.answers { memory := memory.requeue.quarantine } := by
  have hkept := hin.kept.requeue
  rw [hin.requeue_eq] at hkept ⊢
  exact ⟨⟨hkept.synced, hkept.hunting, hkept.left, hkept.counted, hkept.fresh⟩, trivial,
    hin.bootEnd, fun _ => ⟨rfl, hunt, hin.inRow, hin.disarmed⟩, rfl⟩

/-- An abort during a hunt leaves the probe to be asked again. -/
theorem kept_stopAndRestore (hkept : Kept context memory) (choice : HuntChoice) :
    Kept context (stopAndRestore memory choice) := by
  unfold stopAndRestore
  dsimp only
  split
  · exact ⟨hkept.synced, hkept.hunting, hkept.left, hkept.counted, hkept.fresh⟩
  · split
    · have hstopped : Kept context { memory with
          abortRequested := true, soaking := false, hunting := false } :=
        ⟨hkept.synced, fun h => absurd h (by simp), hkept.left, hkept.counted, hkept.fresh⟩
      exact hstopped.requeue
    · exact ⟨hkept.synced, hkept.hunting, hkept.left, hkept.counted, hkept.fresh⟩

/-- What a stop does not touch. -/
theorem stopAndRestore_keeps (memory : HuntMemory) (choice : HuntChoice) :
    (stopAndRestore memory choice).abortRequested = true ∧
      (stopAndRestore memory choice).bootEnd = memory.bootEnd ∧
      (stopAndRestore memory choice).quarantined = memory.quarantined ∧
      (stopAndRestore memory choice).answers = memory.answers := by
  unfold stopAndRestore
  dsimp only
  split
  · exact ⟨rfl, rfl, rfl, rfl⟩
  · split
    · unfold HuntMemory.requeue
      dsimp only
      split <;> exact ⟨rfl, rfl, rfl, rfl⟩
    · exact ⟨rfl, rfl, rfl, rfl⟩

theorem Disarmed.requeue (hdisarmed : Disarmed memory) : Disarmed memory.requeue := by
  obtain ⟨hunt, hrow, harmed⟩ := hdisarmed
  unfold HuntMemory.requeue
  dsimp only
  split
  · exact ⟨hunt, hrow, harmed⟩
  · exact ⟨_, rfl, rfl⟩

theorem Disarmed.stopAndRestore (hdisarmed : Disarmed memory) (choice : HuntChoice) :
    Disarmed (stopAndRestore memory choice) := by
  unfold HuntContext.stopAndRestore
  dsimp only
  split
  · exact hdisarmed
  · split
    · exact Disarmed.requeue hdisarmed
    · exact hdisarmed

/-- Outside a hunt, a stop leaves the row as it is. -/
theorem stopAndRestore_idle (choice : HuntChoice) (hidle : memory.hunting = false) :
    (stopAndRestore memory choice).hunting = false ∧
      (stopAndRestore memory choice).row = memory.row := by
  unfold stopAndRestore
  dsimp only
  split
  · exact ⟨hidle, rfl⟩
  · rw [if_neg (by simp [hidle])]
    exact ⟨hidle, rfl⟩

theorem InSeries.good_abort (hin : InSeries context memory hunt) (choice : HuntChoice) :
    Good context memory.answers { memory := abort memory choice } := by
  have hsame : abort memory choice = stopAndRestore memory choice := by
    simp [abort, hin.hunting]
  obtain ⟨-, hboot, hclosed, hanswers⟩ := stopAndRestore_keeps memory choice
  rw [hsame]
  refine ⟨kept_stopAndRestore hin.kept choice, trivial, hboot.trans hin.bootEnd, ?_, hanswers⟩
  exact fun h => hin.closed (hclosed.symm.trans h)

theorem InSeries.good_onStartupFailure (hin : InSeries context memory hunt) (report : Report)
    (choice : HuntChoice) :
    Good context memory.answers { memory := context.onStartupFailure memory report choice } := by
  have hcharged : ∃ charged, (if context.foreign memory report ≠ [] ∧ choice.evidencePauses = true
        then memory.pause else memory) = charged ∧
      InSeries context charged hunt ∧ charged.answers = memory.answers := by
    refine ⟨_, rfl, ?_⟩
    split
    · exact ⟨hin.pause, by rw [pause_of_open hin.isOpen]⟩
    · exact ⟨hin, rfl⟩
  obtain ⟨charged, hequal, hseries, hanswers⟩ := hcharged
  unfold onStartupFailure
  simp only [hequal, hin.hunting, hin.inMemory, Option.isSome_some, Bool.and_self, if_true]
  rw [← hanswers]
  split
  · exact hseries.good_requeue_pause
  · exact hseries.good_requeue_quarantine

theorem InSeries.good_onThermalStop (hin : InSeries context memory hunt) (report : Report)
    (choice : HuntChoice) :
    Good context memory.answers (context.onThermalStop memory report choice) := by
  unfold onThermalStop
  split
  · exact hin.good_pause
  · rw [if_pos hin.hunting]
    have hcounted := hin.withFlags memory.soaking memory.paused (memory.thermalAborts + 1)
      memory.apparatusFaults
    dsimp only
    split
    · exact hcounted.good_abort choice
    · exact hcounted.good_requeue_later

theorem InSeries.good_handleApparatusFault (hin : InSeries context memory hunt)
    (report : Report) (choice : HuntChoice) :
    Good context memory.answers (context.handleApparatusFault memory report choice) := by
  unfold handleApparatusFault
  dsimp only
  split
  · exact (hin.withFlags false memory.paused memory.thermalAborts
      memory.apparatusFaults).good_pause
  · have hcounted := hin.withFlags false memory.paused memory.thermalAborts
      (memory.apparatusFaults + 1)
    split
    · exact hcounted.good_abort choice
    · rw [if_pos hin.hunting]
      exact hcounted.good_requeue_later

/-- What a result tells of the probe in flight. -/
def resultAnswer (context : HuntContext) (memory : HuntMemory) (report : Report) :
    Option Bool :=
  match memory.row with
  | none => none
  | some hunt =>
      if !context.taken memory report then none
      else if context.isClean memory report then
        if memory.clean + 1 = launches context hunt then some false else none
      else if !report.passed && lacksVerdict report.errorType then none
      else if context.inconsistent memory hunt report then none
      else some true

/-- The answers once one more is given, or none. -/
def answered (memory : HuntMemory) (answer : Option Bool) : List (List CoreId × Bool) :=
  memory.answers ++ answer.toList.map (probe memory, ·)

@[simp] theorem answered_none (memory : HuntMemory) : answered memory none = memory.answers := by
  simp [answered]

/-- The slot is over, and its launch belongs to a series. -/
theorem inSeries_disarm (hhunting : memory.hunting = true)
    (hcounted : Counted context memory.clean hunt) (hflight : hunt.inFlight ≠ [])
    (hseries : memory.clean + 1 + memory.launchesLeft = launches context hunt)
    (hboot : memory.bootEnd = .same) (hopen : memory.quarantined = false) :
    InSeries context (memory.save { hunt with armed := false }) { hunt with armed := false } :=
  ⟨rfl, rfl, hhunting, hcounted.disarm, hflight, rfl, hseries, hboot, hopen⟩

theorem disarm_eq (hhunt : memory.hunt = some hunt) (hhunting : memory.hunting = true) :
    disarm memory = memory.save { hunt with armed := false } := by
  simp [disarm, hhunt, hhunting]

theorem onHuntSlotFinished_of_hunt (hhunt : memory.hunt = some hunt) :
    context.onHuntSlotFinished memory report =
      if context.inconsistent memory hunt report then
        { memory := ({ memory with soaking := false } : HuntMemory).requeue.pause }
      else if !(!report.passed || decide (context.foreign memory report ≠ [])) &&
          decide (memory.launchesLeft ≠ 0) then
        { memory := ({ memory with soaking := false } : HuntMemory).save
            { hunt with launchesDone := hunt.launchesDone + 1 }
          next := .later .nextHuntSlot }
      else
        { memory := ({ memory with soaking := false } : HuntMemory).recordProbe context.config hunt
            (!report.passed || decide (context.foreign memory report ≠ []))
          next := .later .nextHuntSlot } := by
  unfold onHuntSlotFinished
  dsimp only
  split
  · next hnone => simp [hhunt] at hnone
  · next other hother =>
      obtain rfl := Option.some.inj (hhunt.symm.trans hother)
      rfl

/-- A verdict that is not clean answers the probe, unless it is evidence against a core at
stock. -/
theorem InSeries.good_onHuntSlotFinished (hin : InSeries context memory hunt)
    (hclean : context.isClean memory report = false) :
    Good context (memory.answers ++ if context.inconsistent memory hunt report then []
        else [(hunt.inFlight, true)])
      (context.onHuntSlotFinished memory report) := by
  have hrested := hin.withFlags false memory.paused memory.thermalAborts memory.apparatusFaults
  rw [onHuntSlotFinished_of_hunt hin.inMemory]
  split
  · rw [List.append_nil]
    exact hrested.good_requeue_pause
  · have hreproduced :
        (!report.passed || decide (context.foreign memory report ≠ [])) = true := by
      unfold isClean at hclean
      cases hpassed : report.passed with
      | false => rfl
      | true => simpa [hpassed] using hclean
    simp only [hreproduced, Bool.not_true, Bool.false_and, Bool.false_eq_true, if_false]
    refine ⟨kept_recordProbe hrested.counted hrested.flight hrested.disarmed true, ?_,
      hin.bootEnd, hin.closed, rfl⟩
    exact fun _ => ⟨hin.hunting, Or.inl rfl⟩

/-- A clean launch is counted, or answers the probe as the last of its series. -/
theorem good_onHuntSlotFinished_clean (hin : InSeries context memory hunt)
    (hpassed : report.passed = true) (hforeign : context.foreign memory report = []) :
    Good context (memory.answers ++
        if memory.clean + 1 = launches context hunt then [(hunt.inFlight, false)] else [])
      (context.onHuntSlotFinished { memory with clean := memory.clean + 1 } report) := by
  have hconsistent : context.inconsistent { memory with clean := memory.clean + 1 } hunt report =
      false := by
    unfold inconsistent
    rw [hpassed, show context.foreign { memory with clean := memory.clean + 1 } report = [] from
      hforeign]
    rfl
  have hreproduced : (!report.passed || decide (context.foreign
      { memory with clean := memory.clean + 1 } report ≠ [])) = false := by
    rw [hpassed, show context.foreign { memory with clean := memory.clean + 1 } report = [] from
      hforeign]
    rfl
  have hmemory : ({ memory with clean := memory.clean + 1 } : HuntMemory).hunt = some hunt :=
    hin.inMemory
  have hseries := hin.series
  rw [onHuntSlotFinished_of_hunt hmemory, hconsistent, hreproduced, Bool.not_false,
    Bool.true_and, if_neg Bool.false_ne_true]
  by_cases hleft : memory.launchesLeft = 0
  · have hlast : memory.clean + 1 = launches context hunt := by omega
    have hnone : ¬ decide (memory.launchesLeft ≠ 0) = true := by simp [hleft]
    rw [if_pos hlast, if_neg hnone]
    refine ⟨kept_recordProbe hin.counted hin.flight hin.disarmed false, ?_, hin.bootEnd,
      hin.closed, rfl⟩
    exact fun _ => ⟨hin.hunting, Or.inl rfl⟩
  · have hmore : memory.clean + 1 < launches context hunt := by omega
    rw [if_neg hmore.ne, if_pos (decide_eq_true hleft), List.append_nil]
    refine ⟨kept_save (hin.counted.launched hin.flight hmore), ?_, hin.bootEnd, hin.closed, rfl⟩
    exact fun _ => ⟨hin.hunting, Or.inr ⟨_, rfl, hin.flight, hseries⟩⟩

/-- A verdict on a probe in flight is handled by the hunt. -/
theorem onTestFinished_of_verdict (hhunt : memory.hunt = some hunt)
    (hhunting : memory.hunting = true) (habort : memory.abortRequested = false)
    (hcore : report.core ∈ context.coreIds)
    (hverdict : (!report.passed && lacksVerdict report.errorType) = false)
    (hreverted : choice.reverted = true) :
    context.onTestFinished memory report choice =
      context.onHuntSlotFinished
        { memory.save { hunt with armed := false } with apparatusFaults := 0 } report := by
  have hlacks : ∀ errorType, lacksVerdict errorType = true →
      ¬ (report.passed = false ∧ report.errorType = errorType) := by
    rintro errorType hlacks ⟨hpassed, rfl⟩
    simp [hpassed, hlacks] at hverdict
  have hneither : ¬ (report.passed = false ∧ lacksVerdict report.errorType = true) := by
    rintro ⟨hpassed, hclass⟩
    simp [hpassed, hclass] at hverdict
  unfold onTestFinished
  rw [if_neg (by simp [habort]), disarm_eq hhunt hhunting]
  dsimp only
  rw [if_neg (not_not.mpr hcore), if_neg (hlacks _ (by decide)), if_neg (hlacks _ (by decide)),
    if_neg hneither, hreverted, Bool.not_true, Bool.and_false, if_neg Bool.false_ne_true]
  exact if_pos hhunting

/-- A verdict on a launch of the probe in flight, with evidence against a core at stock. -/
structure StockEvidence (context : HuntContext) (memory : HuntMemory) (hunt : HuntState)
    (report : Report) : Prop where
  inRow : memory.row = some hunt
  taken : context.taken memory report = true
  verdict : (!report.passed && lacksVerdict report.errorType) = false
  atStock : context.inconsistent memory hunt report = true

/-- Evidence against a core at stock is no clean end. -/
theorem isClean_of_inconsistent (hstock : context.inconsistent memory hunt report = true) :
    context.isClean memory report = false := by
  unfold inconsistent at hstock
  unfold isClean
  rcases Bool.or_eq_true_iff.mp hstock with hfailed | hforeign
  · have hpassed : report.passed = false := by
      simpa using (Bool.and_eq_true_iff.mp hfailed).1
    rw [hpassed, Bool.false_and]
  · have hnamed : context.foreign memory report ≠ [] := by
      rintro hnil
      simp [hnil] at hforeign
    rw [decide_eq_false hnamed, Bool.and_false]

/-- Evidence against a core at stock puts the probe back and pauses the engine. -/
theorem StockEvidence.onResult (hevidence : StockEvidence context memory hunt report)
    (hkept : Kept context memory) (hopen : memory.quarantined = false)
    (hreverted : choice.reverted = true) :
    context.onTestFinished (context.noteClean memory report) report choice =
      { memory :=
          { memory.save { hunt with armed := false } with
            soaking := false
            launchesLeft := 0
            apparatusFaults := 0
            paused := true } } := by
  have htaken := hevidence.taken
  simp only [HuntContext.taken, Bool.and_eq_true, Bool.not_eq_true', decide_eq_true_eq] at htaken
  obtain ⟨⟨⟨habort, hhunting⟩, hsome⟩, hcore⟩ := htaken
  obtain ⟨other, hhunt⟩ := Option.isSome_iff_exists.mp hsome
  obtain rfl : other = hunt :=
    Option.some.inj ((hkept.row_of_hunt hhunt).symm.trans hevidence.inRow)
  have hnote : context.noteClean memory report = memory := by
    simp [noteClean, isClean_of_inconsistent hevidence.atStock]
  set saved : HuntMemory := { memory.save { other with armed := false } with apparatusFaults := 0 }
    with hsaved
  have hdisarmed : saved.hunt = some { other with armed := false } := rfl
  have hstock : context.inconsistent saved { other with armed := false } report = true :=
    hevidence.atStock
  have hunsoaked : ({ saved with soaking := false } : HuntMemory).hunt =
      some { other with armed := false } := rfl
  rw [hnote, onTestFinished_of_verdict hhunt hhunting habort hcore hevidence.verdict hreverted,
    onHuntSlotFinished_of_hunt hdisarmed, if_pos hstock, requeue_of_hunt hunsoaked,
    pause_of_open (by exact hopen)]
  rfl

/-- What is no verdict leaves the probe unanswered. -/
theorem InSeries.good_onTestFinished (habort : memory.abortRequested = false)
    (hcore : report.core ∈ context.coreIds) (hpassed : report.passed = false)
    (hlacks : lacksVerdict report.errorType = true)
    (hin : InSeries context (disarm memory) hunt) (choice : HuntChoice) :
    Good context (disarm memory).answers (context.onTestFinished memory report choice) := by
  unfold onTestFinished
  rw [if_neg (by simp [habort])]
  dsimp only
  rw [if_neg (not_not.mpr hcore)]
  split
  · exact hin.good_onStartupFailure report choice
  · split
    · exact hin.good_onThermalStop report choice
    · rw [if_pos ⟨hpassed, hlacks⟩]
      exact hin.good_handleApparatusFault report choice

/-- **Results.**  A result answers the probe in flight as `resultAnswer` says. -/
theorem good_onResult (hkept : Kept context memory) (hrunning : Running context memory)
    (hboot : memory.bootEnd = .same) (hopen : memory.quarantined = false)
    (hreverted : choice.reverted = true) :
    Good context (answered memory (resultAnswer context memory report))
      (context.onTestFinished (context.noteClean memory report) report choice) := by
  cases habort : memory.abortRequested with
  | true =>
      have htaken : context.taken memory report = false := by simp [taken, habort]
      have hnote : context.noteClean memory report = memory := by simp [noteClean, htaken]
      have hanswer : resultAnswer context memory report = none := by
        unfold resultAnswer
        split
        · rfl
        · simp [htaken]
      rw [hanswer, answered_none, hnote, onTestFinished, if_pos habort]
      exact ⟨hkept, trivial, hboot, fun h => absurd (hopen.symm.trans h) (by simp), rfl⟩
  | false =>
      obtain ⟨hhunting, hunt, hrow, hflight, hseries⟩ := hrunning habort
      have hhunt : memory.hunt = some hunt := by
        obtain ⟨other, hother⟩ := hkept.hunt_of_hunting hhunting
        rw [hother, ← hkept.row_of_hunt hother, hrow]
      have hin := inSeries_disarm hhunting (hkept.counted hunt hrow) hflight hseries hboot
        hopen
      have hprobe : probe memory = hunt.inFlight := by simp [probe, hrow]
      by_cases hcore : report.core ∈ context.coreIds
      · have htaken : context.taken memory report = true := by
          simp [taken, habort, hhunting, hhunt, hcore]
        -- What the report answers: a clean end of the series, nothing, or a failure.
        have hanswer : answered memory (resultAnswer context memory report) =
            memory.answers ++
              if context.isClean memory report then
                if memory.clean + 1 = launches context hunt then [(hunt.inFlight, false)]
                else []
              else if !report.passed && lacksVerdict report.errorType then []
              else if context.inconsistent memory hunt report then []
              else [(hunt.inFlight, true)] := by
          unfold answered resultAnswer
          rw [hprobe]
          simp only [hrow, htaken, Bool.not_true, Bool.false_eq_true, if_false]
          split_ifs <;> rfl
        rw [hanswer]
        cases hclean : context.isClean memory report with
        | true =>
            obtain ⟨hpassed, hforeign⟩ : report.passed = true ∧
                context.foreign memory report = [] := by
              simpa [isClean] using hclean
            have hnote : context.noteClean memory report =
                { memory with clean := memory.clean + 1 } := by
              simp [noteClean, htaken, hclean]
            have hmemory : ({ memory with clean := memory.clean + 1 } : HuntMemory).hunt =
                some hunt := hhunt
            rw [hnote, onTestFinished_of_verdict hmemory hhunting habort hcore
              (by simp [hpassed]) hreverted, if_pos rfl]
            exact good_onHuntSlotFinished_clean
              (hin.withFlags memory.soaking memory.paused memory.thermalAborts 0) hpassed hforeign
        | false =>
            have hnote : context.noteClean memory report = memory := by
              simp [noteClean, hclean]
            rw [hnote, if_neg Bool.false_ne_true]
            cases hverdict : !report.passed && lacksVerdict report.errorType with
            | true =>
                obtain ⟨hpassed, hlacks⟩ : report.passed = false ∧
                    lacksVerdict report.errorType = true := by simpa using hverdict
                rw [if_pos rfl, List.append_nil]
                rw [← disarm_eq hhunt hhunting] at hin
                have hgood := hin.good_onTestFinished habort hcore hpassed hlacks choice
                rwa [disarm_eq hhunt hhunting] at hgood
            | false =>
                rw [onTestFinished_of_verdict hhunt hhunting habort hcore hverdict hreverted,
                  if_neg Bool.false_ne_true]
                exact (hin.withFlags memory.soaking memory.paused memory.thermalAborts
                  0).good_onHuntSlotFinished hclean
      -- The report of a core that is not in the session is dropped.
      · have htaken : context.taken memory report = false := by simp [taken, hcore]
        have hnote : context.noteClean memory report = memory := by simp [noteClean, htaken]
        have hanswer : resultAnswer context memory report = none := by
          simp [resultAnswer, hrow, htaken]
        rw [hanswer, answered_none, hnote, onTestFinished, if_neg (by simp [habort])]
        dsimp only
        rw [if_pos hcore, disarm_eq hhunt hhunting]
        exact hin.good_stay

end Results

/-! ## Opening and resuming -/

section Calls

variable {memory : HuntMemory} {choice : HuntChoice} {answers : List (List CoreId × Bool)}

theorem Good.writing {reaction : HuntReaction} (hgood : Good context answers reaction) :
    Good context answers { reaction with writes := true } :=
  ⟨hgood.kept, hgood.leaves, hgood.bootEnd, hgood.closed, hgood.answers⟩

/-- A hunt that `begin` opens has nothing in flight. -/
theorem counted_opened {candidates loaded : List CoreId} {seconds : ℚ} {opened : HuntState}
    (hbegin : begin candidates loaded seconds = .ok opened) (vector : List (CoreId × Int))
    (workload : Option WorkloadEntry) :
    Counted context 0 { opened with vector, workload } := by
  obtain ⟨hcandidates, -, -, rfl⟩ := begin_eq_ok_iff.mp hbegin
  refine ⟨⟨_, (represents_opened candidates loaded seconds).withProgress _ _ _ _,
    wellFormed_opened hcandidates.1 loaded _⟩, ?_, ?_, ?_⟩
  · exact fun h => absurd h (by simp [Bisect.opened])
  · exact fun _ => ⟨rfl, rfl⟩
  · exact fun hne => absurd rfl hne

/-- A hunt is opened where there is none. -/
theorem good_startHunt (hkept : Kept context memory) (hnone : memory.hunt = none)
    (hrow : memory.row = none) (hboot : memory.bootEnd = .same)
    (hopen : memory.quarantined = false) (seconds : ℚ) (loaded : List CoreId)
    (vector : List (CoreId × Int)) (workload : Option WorkloadEntry) :
    Good context memory.answers
      (context.startHunt memory seconds loaded vector workload choice) := by
  have hclosed : ∀ {proposition : Prop}, memory.quarantined = true → proposition := fun hset =>
    absurd (hopen.symm.trans hset) (by simp)
  have hidle : memory.launchesLeft = 0 := by
    by_contra hleft
    exact hkept.left hleft hnone
  unfold startHunt
  dsimp only
  split
  · refine ⟨⟨Or.inl rfl, fun h => absurd h (by simp), fun h => absurd hidle h, ?_, ?_⟩, trivial,
      hboot, hclosed, rfl⟩
    · exact fun other hother => absurd hother (by simp)
    · exact fun _ => hkept.fresh hrow
  · split
    · exact ⟨hkept, trivial, hboot, hclosed, rfl⟩
    · next opened hbegin =>
        refine good_runNextHuntSlot ?_ ?_ ?_ ?_ ?_
        · apply kept_save
          show Counted context memory.clean _
          rw [hkept.fresh hrow]
          exact counted_opened hbegin vector workload
        · exact fun _ => ⟨rfl, Or.inl hidle⟩
        · exact hboot
        · exact hopen
        · rfl

/-- What a resume tells of the probe in flight. -/
def resumeAnswer (memory : HuntMemory) (choice : HuntChoice) : Option Bool :=
  match choice.admission, memory.bootEnd with
  | .admitted, .died => some true
  | _, _ => none

/-- **Resuming.**  The row takes the series up from what it has counted; a machine that died
under an armed launch has answered. -/
theorem good_resume (hkept : Kept context memory)
    (hdied : memory.bootEnd = .died → ∃ hunt, memory.row = some hunt ∧ hunt.armed = true)
    (hclosed : memory.quarantined = true → Disarmed memory)
    (hadmitted : choice.admission = .admitted) (hrestored : choice.restored = true) :
    Good context (answered memory (resumeAnswer memory choice))
      (context.resume memory choice) := by
  have hanswer : memory.bootEnd ≠ .died → resumeAnswer memory choice = none := by
    intro hboot
    unfold resumeAnswer
    split
    · next hdied' => exact absurd hdied' hboot
    · rfl
  unfold resume
  simp only [hadmitted, hrestored, if_true]
  split
  · next hrow =>
      have hboot : memory.bootEnd ≠ .died := by
        intro hboot
        obtain ⟨hunt, hsome, -⟩ := hdied hboot
        simp [hrow] at hsome
      rw [hanswer hboot, answered_none]
      refine ⟨⟨Or.inl rfl, fun h => absurd h (by simp), fun h => absurd rfl h, ?_, ?_⟩, trivial,
        rfl, fun h => absurd h (by simp), rfl⟩
      · exact fun other hother => absurd (hrow.symm.trans hother) (by simp)
      · exact fun _ => hkept.fresh hrow
  · next hunt hrow =>
      have hcounted := hkept.counted hunt hrow
      split
      · next hsurvived =>
          have hboot : memory.bootEnd ≠ .died := by
            intro hboot
            obtain ⟨other, hother, harmed⟩ := hdied hboot
            -- A quarantine disarms the launch, so no boot can have died under it.
            have hquarantined : memory.quarantined = true := by simpa [hboot] using hsurvived
            obtain ⟨third, hthird, hdisarmed⟩ := hclosed hquarantined
            obtain rfl := Option.some.inj (hother.symm.trans hthird)
            exact absurd (harmed.symm.trans hdisarmed) (by simp)
          rw [hanswer hboot, answered_none]
          apply Good.writing
          split
          · refine good_runNextHuntSlot ?_ ?_ ?_ ?_ ?_
            · exact Kept.requeue (kept_save hcounted)
            · exact fun _ => ⟨rfl, Or.inl rfl⟩
            all_goals rfl
          · refine good_runNextHuntSlot ?_ ?_ ?_ ?_ ?_
            · exact kept_save hcounted
            · exact fun _ => ⟨rfl, Or.inl rfl⟩
            all_goals rfl
      · next hsurvived =>
          have hboot : memory.bootEnd = .died := by
            by_contra hboot
            simp [hboot] at hsurvived
          obtain ⟨other, hother, harmed⟩ := hdied hboot
          obtain rfl := Option.some.inj (hrow.symm.trans hother)
          have hflight := hcounted.armed harmed
          -- The launch died with the machine: its probe is recorded as reproduced.
          have hrecord : answered memory (resumeAnswer memory choice) =
              memory.answers ++ [(hunt.inFlight, true)] := by
            simp [answered, resumeAnswer, hadmitted, hboot, probe, hrow]
          rw [hrecord, if_pos harmed]
          apply Good.writing
          refine good_runNextHuntSlot ?_ ?_ ?_ ?_ ?_
          · exact kept_recordProbe hcounted.disarm hflight rfl true
          · exact fun _ => ⟨rfl, Or.inl rfl⟩
          all_goals rfl

end Calls

/-! ## Runs -/

/-- What a queued entry relies on. -/
def Awaits (context : HuntContext) (memory : HuntMemory) : Pending HuntTask Report → Prop
  | .task .nextHuntSlot => Waiting context memory
  | .task .search => True
  | .result _ _ => Running context memory

/-- What the event loop keeps of a hunt. -/
structure HuntInv (context : HuntContext) (loop : HuntLoop) : Prop where
  single : loop.Single
  kept : Kept context loop.memory
  workers : ∀ worker ∈ loop.workers, Running context loop.memory ∧
    (loop.memory.abortRequested = false → worker.2.live = probe loop.memory)
  queue : ∀ pending ∈ loop.queue, Awaits context loop.memory pending
  booted : loop.memory.bootEnd ≠ .same → loop.flows = 0 ∧ loop.memory.hunting = false
  died : loop.memory.bootEnd = .died →
    ∃ hunt, loop.memory.row = some hunt ∧ hunt.armed = true
  closed : loop.memory.quarantined = true → loop.flows = 0 ∧ Disarmed loop.memory

/-- A run without accidents of the hardware or of the process: reverts and restorations
succeed, a hunt is opened where there is none, a resume that is not turned away finds nothing
left over, and the machine dies only under an armed launch. -/
def Orderly (context : HuntContext) (loop : HuntLoop) : Event Report HuntCall HuntChoice → Prop
  | .finish _ _ => True
  | .handle _ choice => choice.reverted = true
  | .call (.startHunt _ _ _ _) _ =>
      loop.flows = 0 ∧ loop.memory.hunt = none ∧ loop.memory.row = none ∧
        loop.memory.bootEnd = .same
  | .call .resume choice =>
      context.huntProgram.turnsAway loop .resume = true ∨
        loop.flows = 0 ∧ choice.restored = true
  | .call .abort _ => loop.memory.hunting = true
  | .call .pause _ | .call .shutdown _ => True
  | .exit choice => choice.ending = .died →
      loop.flows ≠ 0 ∧ ∃ hunt, loop.memory.row = some hunt ∧ hunt.armed = true

section Runs

variable {loop next : HuntLoop} {event : Event Report HuntCall HuntChoice}

theorem calm_of_orderly (horderly : Orderly context loop event) :
    context.huntProgram.Calm loop event := by
  cases event with
  | call call choice =>
      cases call with
      | startHunt _ _ _ _ => exact Or.inr (Or.inr horderly.1)
      | resume =>
          rcases horderly with haway | ⟨hflows, -⟩
          · exact Or.inl haway
          · exact Or.inr (Or.inr hflows)
      | pause | abort | shutdown => exact Or.inr (Or.inl ⟨rfl, rfl⟩)
  | finish _ _ | handle _ _ | exit _ => trivial

/-- A good reaction where nothing was left keeps the invariant, and gives the answers it is
held to. -/
theorem inv_proceed {answers : List (List CoreId × Bool)} {reaction : HuntReaction}
    (hgood : Good context answers reaction) (hflows : loop.flows = 0)
    (hsingle : (loop.proceed reaction).Single) :
    HuntInv context (loop.proceed reaction) ∧
      (loop.proceed reaction).memory.answers = answers := by
  have hworkers := Loop.workers_nil_of_flows hflows
  have hqueue := Loop.queue_nil_of_flows hflows
  obtain ⟨hkept, hleaves, hboot, hclosed, hanswers⟩ := hgood
  obtain ⟨memory, writes, stops, next⟩ := reaction
  have hmemory : (loop.proceed ⟨memory, writes, stops, next⟩).memory = memory := by
    cases next <;> rfl
  refine ⟨⟨hsingle, ?_, ?_, ?_, ?_, ?_, ?_⟩, ?_⟩
  · rwa [hmemory]
  · rw [hmemory]
    intro worker hmem
    cases next with
    | launch launch =>
        obtain rfl : worker = (loop.dispatched, launch) := by
          cases stops <;>
            simpa [Loop.proceed, Loop.follow, Loop.stopHeld, hworkers] using hmem
        exact ⟨hleaves.1, fun _ => hleaves.2⟩
    | nothing | later _ | fail _ =>
        cases stops <;> simp [Loop.proceed, Loop.follow, Loop.stopHeld, hworkers] at hmem
  · rw [hmemory]
    intro pending hmem
    cases next with
    | nothing | launch _ =>
        cases stops <;> simp [Loop.proceed, Loop.follow, Loop.stopHeld, hqueue] at hmem
    | later task =>
        obtain rfl : pending = .task task := by
          cases stops <;>
            simpa [Loop.proceed, Loop.follow, Loop.stopHeld, hqueue] using hmem
        cases task <;> exact hleaves
    | fail result =>
        obtain rfl : pending = .result loop.dispatched result := by
          cases stops <;>
            simpa [Loop.proceed, Loop.follow, Loop.stopHeld, hqueue] using hmem
        exact hleaves
  · rw [hmemory]
    exact fun hne => absurd hboot hne
  · rw [hmemory]
    exact fun hdied => absurd (hboot.symm.trans hdied) (by simp)
  · rw [hmemory]
    intro hset
    obtain ⟨rfl, hdisarmed⟩ := hclosed hset
    refine ⟨?_, hdisarmed⟩
    cases stops <;>
      simp [Loop.proceed, Loop.follow, Loop.stopHeld, Loop.flows, hworkers, hqueue]
  · rw [hmemory]
    exact hanswers

/-- A call that starts nothing keeps the invariant when it keeps the hunt. -/
theorem HuntInv.inert (hinv : HuntInv context loop) {memory : HuntMemory} (stops : Bool)
    (hsingle : (loop.proceed { memory, stops }).Single) (hkept : Kept context memory)
    (hrunning : Running context loop.memory → Running context memory)
    (hwaiting : Waiting context loop.memory → Waiting context memory)
    (hprobe : memory.abortRequested = false →
      loop.memory.abortRequested = false ∧ probe memory = probe loop.memory)
    (hboot : memory.bootEnd = loop.memory.bootEnd)
    (hidle : loop.memory.hunting = false →
      memory.hunting = false ∧ memory.row = loop.memory.row)
    (hclosed : memory.quarantined = loop.memory.quarantined)
    (hdisarmed : Disarmed loop.memory → Disarmed memory) :
    HuntInv context (loop.proceed { memory, stops }) := by
  have hqueue : (loop.proceed { memory, stops }).queue = loop.queue := by
    cases stops <;> rfl
  have hmemory : (loop.proceed { memory, stops }).memory = memory := by
    cases stops <;> rfl
  have hsub : ∀ worker ∈ (loop.proceed { memory, stops }).workers, worker ∈ loop.workers := by
    cases stops with
    | false => exact fun _ hmem => hmem
    | true => exact fun _ hmem => (List.mem_filter.mp hmem).1
  have hflows : loop.flows = 0 → (loop.proceed { memory, stops }).flows = 0 := by
    intro hnone
    have hworkers := Loop.workers_nil_of_flows hnone
    have hnil : (loop.proceed { memory, stops }).workers = [] := by
      rw [hworkers] at hsub
      exact List.eq_nil_iff_forall_not_mem.mpr fun worker hmem =>
        List.not_mem_nil (hsub worker hmem)
    simp [Loop.flows, hnil, hqueue, Loop.queue_nil_of_flows hnone]
  refine ⟨hsingle, ?_, ?_, ?_, ?_, ?_, ?_⟩
  · rwa [hmemory]
  · rw [hmemory]
    intro worker hmem
    obtain ⟨hran, hmask⟩ := hinv.workers worker (hsub worker hmem)
    refine ⟨hrunning hran, fun hgoes => ?_⟩
    obtain ⟨hwent, hsame⟩ := hprobe hgoes
    rw [hsame]
    exact hmask hwent
  · rw [hmemory, hqueue]
    intro pending hmem
    have hawaits := hinv.queue pending hmem
    cases pending with
    | task task =>
        cases task with
        | nextHuntSlot => exact hwaiting hawaits
        | search => trivial
    | result _ _ => exact hrunning hawaits
  · rw [hmemory, hboot]
    intro hne
    obtain ⟨hnone, hnot⟩ := hinv.booted hne
    exact ⟨hflows hnone, (hidle hnot).1⟩
  · rw [hmemory, hboot]
    intro hdied
    obtain ⟨-, hnot⟩ := hinv.booted (by simp [hdied])
    rw [(hidle hnot).2]
    exact hinv.died hdied
  · rw [hmemory, hclosed]
    intro hset
    obtain ⟨hnone, hrow⟩ := hinv.closed hset
    exact ⟨hflows hnone, hdisarmed hrow⟩

/-- Where nothing is left, the memory is all there is to keep. -/
theorem HuntInv.of_none (hsingle : loop.Single) (hflows : loop.flows = 0)
    (hkept : Kept context loop.memory)
    (hbooted : loop.memory.bootEnd ≠ .same → loop.memory.hunting = false)
    (hdied : loop.memory.bootEnd = .died →
      ∃ hunt, loop.memory.row = some hunt ∧ hunt.armed = true)
    (hclosed : loop.memory.quarantined = true → Disarmed loop.memory) :
    HuntInv context loop where
  single := hsingle
  kept := hkept
  workers := fun worker hmem => by
    rw [Loop.workers_nil_of_flows hflows] at hmem
    exact absurd hmem List.not_mem_nil
  queue := fun pending hmem => by
    rw [Loop.queue_nil_of_flows hflows] at hmem
    exact absurd hmem List.not_mem_nil
  booted := fun hne => ⟨hflows, hbooted hne⟩
  died := hdied
  closed := fun hset => ⟨hflows, hclosed hset⟩

/-- A memory that only has the row left keeps what the row has counted. -/
theorem Kept.forget {memory after : HuntMemory} (hkept : Kept context memory)
    (hhunt : after.hunt = none) (hrow : after.row = memory.row) (hhunting : after.hunting = false)
    (hleft : after.launchesLeft = 0) (hclean : after.clean = memory.clean) :
    Kept context after where
  synced := Or.inl hhunt
  hunting := fun h => absurd (hhunting.symm.trans h) (by simp)
  left := fun h => absurd hleft h
  counted := fun hunt hsome => hclean ▸ hkept.counted hunt (hrow ▸ hsome)
  fresh := fun hnone => hclean.trans (hkept.fresh (hrow ▸ hnone))

/-- A resume that is refused forgets all but the row. -/
theorem HuntInv.refused (hinv : HuntInv context loop) (hflows : loop.flows = 0)
    {after : HuntMemory} (hsingle : (loop.proceed { memory := after }).Single)
    (hhunt : after.hunt = none) (hrow : after.row = loop.memory.row)
    (hhunting : after.hunting = false) (hleft : after.launchesLeft = 0)
    (hclean : after.clean = loop.memory.clean) (hboot : after.bootEnd = loop.memory.bootEnd)
    (hclosed : after.quarantined = loop.memory.quarantined) :
    HuntInv context (loop.proceed { memory := after }) := by
  refine HuntInv.of_none hsingle hflows (hinv.kept.forget hhunt hrow hhunting hleft hclean)
    (fun _ => hhunting) ?_ ?_
  · intro hdied
    obtain ⟨hunt, hsome, harmed⟩ := hinv.died (hboot.symm.trans hdied)
    exact ⟨hunt, hrow.trans hsome, harmed⟩
  · intro hset
    obtain ⟨-, hunt, hsome, hdisarmed⟩ := hinv.closed (hclosed.symm.trans hset)
    exact ⟨hunt, hrow.trans hsome, hdisarmed⟩

/-- What an event tells of the probe in flight. -/
def answerOf (context : HuntContext) (loop : HuntLoop) :
    Event Report HuntCall HuntChoice → Option Bool
  | .handle position _ =>
      match loop.queue[position]? with
      | some (.result _ report) => resultAnswer context loop.memory report
      | _ => none
  | .call .resume choice =>
      if context.huntProgram.turnsAway loop .resume then none
      else resumeAnswer loop.memory choice
  | _ => none

/-- An event that tells nothing of the probe. -/
theorem answered_quiet (hnone : answerOf context loop event = none) :
    answered loop.memory (answerOf context loop event) = loop.memory.answers := by
  rw [hnone, answered_none]

/-- While anything flows, the boot has not ended and the hunt is not quarantined. -/
theorem HuntInv.busy (hinv : HuntInv context loop) (hflows : loop.flows ≠ 0) :
    loop.memory.bootEnd = .same ∧ loop.memory.quarantined = false := by
  refine ⟨?_, ?_⟩
  · by_contra hboot
    exact hflows (hinv.booted hboot).1
  · by_contra hclosed
    exact hflows (hinv.closed (by simpa using hclosed)).1

/-- The result of a worker is queued; the memory stays as it is. -/
theorem inv_finish (hinv : HuntInv context loop) {serial : Nat} {report : Report}
    (hsingle : next.Single)
    (hstep : context.huntProgram.system.step loop (.finish serial report) = some next) :
    HuntInv context next ∧ next.memory = loop.memory := by
  simp only [Program.system, Option.ite_none_right_eq_some, Option.some.injEq] at hstep
  obtain ⟨hany, rfl⟩ := hstep
  obtain ⟨worker, hworker, -⟩ := List.any_eq_true.mp hany
  have hrunning := (hinv.workers worker hworker).1
  have hflows : loop.flows ≠ 0 := fun hnone => by
    rw [Loop.workers_nil_of_flows hnone] at hworker
    exact List.not_mem_nil hworker
  obtain ⟨hboot, hopen⟩ := hinv.busy hflows
  refine ⟨⟨hsingle, hinv.kept, ?_, ?_, ?_, ?_, ?_⟩, rfl⟩
  · exact fun other hmem => hinv.workers other (List.mem_filter.mp hmem).1
  · intro pending hmem
    rcases List.mem_append.mp hmem with hold | hnew
    · exact hinv.queue pending hold
    · obtain rfl := List.mem_singleton.mp hnew
      exact hrunning
  · exact fun hne => absurd hboot hne
  · exact fun hdied => absurd (hboot.symm.trans hdied) (by simp)
  · exact fun hset => absurd (hopen.symm.trans hset) (by simp)

/-- What is handled was the only flow, so nothing else runs meanwhile. -/
theorem inv_handle (hinv : HuntInv context loop) {position : Nat}
    (horderly : Orderly context loop (.handle position choice)) (hsingle : next.Single)
    (hstep : context.huntProgram.system.step loop (.handle position choice) = some next) :
    HuntInv context next ∧ next.memory.answers =
      answered loop.memory (answerOf context loop (.handle position choice)) := by
  obtain ⟨pending, htaken, rfl⟩ := Option.map_eq_some_iff.mp hstep
  have hnone := hinv.single.flows_eraseIdx htaken
  have hawaits := hinv.queue pending (List.mem_of_getElem? htaken)
  have hflows : loop.flows ≠ 0 := by
    intro hflows
    rw [Loop.queue_nil_of_flows hflows] at htaken
    simp at htaken
  obtain ⟨hboot, hopen⟩ := hinv.busy hflows
  cases pending with
  | task task =>
      have hanswer : answerOf context loop (.handle position choice) = none := by
        simp [answerOf, htaken]
      rw [hanswer, answered_none]
      cases task with
      | nextHuntSlot =>
          exact inv_proceed (good_runNextHuntSlot hinv.kept hawaits hboot hopen rfl) hnone hsingle
      | search =>
          have hgood : Good context loop.memory.answers { memory := loop.memory } :=
            ⟨hinv.kept, trivial, hboot, fun hset => absurd (hopen.symm.trans hset) (by simp), rfl⟩
          exact inv_proceed hgood hnone hsingle
  | result serial report =>
      have hanswer : answerOf context loop (.handle position choice) =
          resultAnswer context loop.memory report := by
        simp [answerOf, htaken]
      rw [hanswer]
      exact inv_proceed (good_onResult hinv.kept hawaits hboot hopen horderly) hnone hsingle

/-- Abort and shutdown both restore stock, and answer nothing. -/
theorem inv_stopAndRestore (hinv : HuntInv context loop) (stops : Bool)
    (hsingle : (loop.proceed { memory := stopAndRestore loop.memory choice, stops }).Single) :
    HuntInv context (loop.proceed { memory := stopAndRestore loop.memory choice, stops }) ∧
      (loop.proceed { memory := stopAndRestore loop.memory choice, stops }).memory.answers =
        loop.memory.answers := by
  obtain ⟨habort, hboot, hclosed, hanswers⟩ := stopAndRestore_keeps loop.memory choice
  refine ⟨hinv.inert stops hsingle (kept_stopAndRestore hinv.kept choice) ?_ ?_ ?_ hboot ?_
    hclosed (fun h => h.stopAndRestore choice), ?_⟩
  · exact fun _ hgoes => absurd (habort.symm.trans hgoes) (by simp)
  · exact fun _ hgoes => absurd (habort.symm.trans hgoes) (by simp)
  · exact fun hgoes => absurd (habort.symm.trans hgoes) (by simp)
  · exact stopAndRestore_idle choice
  · cases stops <;> exact hanswers

/-- A pause keeps the hunt, whether or not the session heeds it. -/
theorem inv_pause (hinv : HuntInv context loop)
    (hsingle : (loop.proceed { memory := loop.memory.pause }).Single) :
    HuntInv context (loop.proceed { memory := loop.memory.pause }) ∧
      (loop.proceed { memory := loop.memory.pause }).memory.answers = loop.memory.answers := by
  have hkept := hinv.kept.pause
  obtain ⟨paused, hpause⟩ := pause_eq loop.memory
  rw [hpause] at hsingle hkept ⊢
  exact ⟨hinv.inert false hsingle hkept id id (fun h => ⟨h, rfl⟩) rfl
    (fun h => ⟨h, rfl⟩) rfl id, rfl⟩

/-- A resume goes on with the series only if it is admitted. -/
theorem inv_resume (hinv : HuntInv context loop) (hflows : loop.flows = 0)
    (hrestored : choice.restored = true)
    (hsingle : (loop.proceed (context.resume loop.memory choice)).Single) :
    HuntInv context (loop.proceed (context.resume loop.memory choice)) ∧
      (loop.proceed (context.resume loop.memory choice)).memory.answers =
        answered loop.memory (resumeAnswer loop.memory choice) := by
  cases hadmission : choice.admission with
  | admitted =>
      exact inv_proceed (good_resume hinv.kept hinv.died (fun hset => (hinv.closed hset).2)
        hadmission hrestored) hflows hsingle
  | refused =>
      have hanswer : resumeAnswer loop.memory choice = none := by simp [resumeAnswer, hadmission]
      rw [hanswer, answered_none]
      simp only [HuntContext.resume, hadmission] at hsingle ⊢
      exact ⟨hinv.refused hflows hsingle rfl rfl rfl rfl rfl rfl rfl, rfl⟩
  | pausedEarly =>
      have hanswer : resumeAnswer loop.memory choice = none := by simp [resumeAnswer, hadmission]
      rw [hanswer, answered_none]
      obtain ⟨paused, hpause⟩ := pause_eq
        { loop.memory with
          abortRequested := false
          paused := false
          hunting := false
          hunt := none
          soaking := false
          launchesLeft := 0 }
      simp only [HuntContext.resume, hadmission] at hsingle ⊢
      rw [hpause] at hsingle ⊢
      exact ⟨hinv.refused hflows hsingle rfl rfl rfl rfl rfl rfl rfl, rfl⟩

/-- A hunt is started where none is left, in a session that is open. -/
theorem inv_startHunt (hinv : HuntInv context loop) {seconds : ℚ} {loaded : List CoreId}
    {vector : List (CoreId × Int)} {workload : Option WorkloadEntry}
    (horderly : Orderly context loop (.call (.startHunt seconds loaded vector workload) choice))
    (hsingle :
      (loop.proceed (context.startHunt loop.memory seconds loaded vector workload choice)).Single) :
    HuntInv context
        (loop.proceed (context.startHunt loop.memory seconds loaded vector workload choice)) ∧
      (loop.proceed
        (context.startHunt loop.memory seconds loaded vector workload choice)).memory.answers =
          loop.memory.answers := by
  obtain ⟨hflows, hhunt, hrow, hboot⟩ := horderly
  have hopen : loop.memory.quarantined = false := by
    by_contra hset
    obtain ⟨-, hunt, hsome, -⟩ := hinv.closed (by simpa using hset)
    simp [hrow] at hsome
  exact inv_proceed (good_startHunt hinv.kept hhunt hrow hboot hopen seconds loaded vector workload)
    hflows hsingle

/-- A call that is not turned away. -/
theorem inv_call (hinv : HuntInv context loop) {call : HuntCall}
    (horderly : Orderly context loop (.call call choice)) (hsingle : next.Single)
    (hnext : next = loop.proceed (context.huntProgram.onCall loop.memory call choice))
    (haway : ¬context.huntProgram.turnsAway loop call = true) :
    HuntInv context next ∧
      next.memory.answers = answered loop.memory (answerOf context loop (.call call choice)) := by
  subst hnext
  cases call with
  | startHunt seconds loaded vector workload =>
      rw [answered_quiet rfl]
      exact inv_startHunt hinv horderly hsingle
  | resume =>
      obtain ⟨hflows, hrestored⟩ := horderly.resolve_left haway
      have hanswer : answerOf context loop (.call .resume choice) =
          resumeAnswer loop.memory choice := if_neg haway
      rw [hanswer]
      exact inv_resume hinv hflows hrestored hsingle
  | pause =>
      rw [answered_quiet rfl]
      exact inv_pause hinv hsingle
  | abort =>
      rw [answered_quiet rfl]
      have hsame : abort loop.memory choice = stopAndRestore loop.memory choice := by
        simp [abort, show loop.memory.hunting = true from horderly]
      simp only [huntProgram, hsame] at hsingle ⊢
      exact inv_stopAndRestore hinv _ hsingle
  | shutdown =>
      rw [answered_quiet rfl]
      exact inv_stopAndRestore hinv _ hsingle

/-- The end of a boot leaves the row alone. -/
theorem inv_exit (hinv : HuntInv context loop) (horderly : Orderly context loop (.exit choice))
    (hsingle : next.Single)
    (hstep : context.huntProgram.system.step loop (.exit choice) = some next) :
    HuntInv context next ∧ next.memory.answers = loop.memory.answers := by
  obtain rfl := Option.some.inj hstep
  refine ⟨HuntInv.of_none hsingle rfl (hinv.kept.forget rfl rfl rfl rfl rfl) (fun _ => rfl)
    ?_ ?_, by simp [huntProgram, onExit]⟩
  · intro hdied
    simp only [huntProgram, onExit] at hdied
    split at hdied
    · exact (horderly hdied).2
    · exact hinv.died hdied
  · exact fun hset => (hinv.closed hset).2

/-- **Step lemma.**  An orderly step keeps the invariant, and answers the probe in flight as
the event tells. -/
theorem inv_step (hinv : HuntInv context loop) (horderly : Orderly context loop event)
    (hstep : context.huntProgram.system.step loop event = some next) :
    HuntInv context next ∧
      next.memory.answers = answered loop.memory (answerOf context loop event) := by
  have hsingle := hinv.single.step (calm_of_orderly horderly) hstep
  cases event with
  | finish serial report =>
      obtain ⟨hkept, hmemory⟩ := inv_finish hinv hsingle hstep
      refine ⟨hkept, ?_⟩
      rw [answered_quiet rfl, hmemory]
  | handle position choice => exact inv_handle hinv horderly hsingle hstep
  | call call choice =>
      simp only [Program.system] at hstep
      split at hstep
      · next haway =>
          obtain rfl := Option.some.inj hstep
          refine ⟨hinv, ?_⟩
          cases call with
          | resume => simp [answerOf, haway]
          | startHunt _ _ _ _ | pause | abort | shutdown => simp [answerOf]
      · next haway =>
          exact inv_call hinv horderly hsingle (Option.some.inj hstep).symm haway
  | exit choice =>
      rw [answered_quiet rfl]
      exact inv_exit hinv horderly hsingle hstep

theorem huntInv_of_reachable
    (hreach : StepSystem.ReachableBy context.huntProgram.system (Orderly context) loop) :
    HuntInv context loop := by
  refine hreach.invariant ?_ ?_
  · rintro _ ⟨memory, rfl, rfl⟩
    have hkept : Kept context {} :=
      ⟨Or.inl rfl, fun h => absurd h (by simp), fun h => absurd rfl h,
        fun _ hsome => absurd hsome (by simp), fun _ => rfl⟩
    exact HuntInv.of_none ⟨by simp [Loop.flows], by simp, by simp, rfl, rfl⟩ rfl hkept
      (fun _ => rfl) (fun hdied => absurd hdied (by simp)) (fun hset => absurd hset (by simp))
  · intro loop event next hinv horderly hstep
    exact (inv_step hinv horderly hstep).1

end Runs

/-- **A probe is answered by its full series.**  In an orderly run the row has counted every
clean launch of the probe in flight once, a launch that runs has the mask of that probe, and
each step gives the answers the event tells: a pass of the whole series is recorded with the
last clean launch, a failure with the first launch that fails on live cores or that the
machine dies under, and nothing else is.  Evidence against a core at stock leaves the probe in
the row with what it has counted, and the engine paused with nothing queued. -/
theorem probe_answered_by_series (context : HuntContext) {loop : HuntLoop}
    (hreach : StepSystem.ReachableBy context.huntProgram.system (Orderly context) loop) :
    (∀ hunt, loop.memory.row = some hunt → hunt.inFlight ≠ [] →
      hunt.launchesDone = loop.memory.clean ∧
        loop.memory.clean < launches context hunt) ∧
    (∀ worker ∈ loop.workers, loop.memory.abortRequested = false →
      worker.2.live = probe loop.memory) ∧
    (∀ event next, Orderly context loop event →
      context.huntProgram.system.step loop event = some next →
      next.memory.answers = answered loop.memory (answerOf context loop event)) ∧
    ∀ position choice serial report hunt next,
      loop.queue[position]? = some (.result serial report) →
      StockEvidence context loop.memory hunt report →
      Orderly context loop (.handle position choice) →
      context.huntProgram.system.step loop (.handle position choice) = some next →
      next.memory.row = some { hunt with armed := false } ∧
        next.memory.launchesLeft = 0 ∧ next.memory.answers = loop.memory.answers ∧
        next.memory.paused = true ∧ next.flows = 0 := by
  have hinv := huntInv_of_reachable hreach
  refine ⟨?_, ?_, ?_, ?_⟩
  · exact fun hunt hrow hflight => (hinv.kept.counted hunt hrow).asked hflight
  · exact fun worker hmem => (hinv.workers worker hmem).2
  · exact fun event next horderly hstep => (inv_step hinv horderly hstep).2
  · intro position choice serial report hunt next htaken hevidence horderly hstep
    have hopen : loop.memory.quarantined = false := by
      by_contra hset
      have hnone := (hinv.closed (by simpa using hset)).1
      rw [Loop.queue_nil_of_flows hnone] at htaken
      cases htaken
    obtain ⟨pending, hpending, rfl⟩ := Option.map_eq_some_iff.mp hstep
    obtain rfl := Option.some.inj (hpending.symm.trans htaken)
    have hnone := hinv.single.flows_eraseIdx htaken
    have hresult := hevidence.onResult hinv.kept hopen horderly
    simp only [Program.take, huntProgram, hresult]
    exact ⟨rfl, rfl, rfl, rfl, hnone⟩

/-- Two cores under the default configuration. -/
def twoCores : HuntContext where
  config := {}
  valid := by decide +kernel
  coreIds := [0, 1]
  cpuToCore cpu := some cpu.toNat
  pow base exponent := binary64.round (base ^ exponent)

/-- A hunt over both cores, after a failure that came five seconds after load started. -/
def huntBoth : Event Report HuntCall HuntChoice :=
  .call (.startHunt 5 [0, 1] [(0, -10), (1, -20)] none) {}

/-- A failure that is reported under core 1. -/
def underOther : Report := { core := 1, passed := false, errorType := some .computation }

/-- The first of ninety launches of core 0 ends clean; or it fails under core 1, which is at
stock. -/
theorem probe_answered_by_series_first :
    (∃ loop, StepSystem.ReachableBy twoCores.huntProgram.system (Orderly twoCores) loop ∧
      probe loop.memory = [0] ∧
      ∀ hunt, loop.memory.row = some hunt → hunt.launchesDone = 1) ∧
    ∃ loop next, StepSystem.ReachableBy twoCores.huntProgram.system (Orderly twoCores) loop ∧
      twoCores.huntProgram.system.step loop (.handle 0 {}) = some next ∧
      next.memory.row.map (fun hunt => (hunt.inFlight, hunt.armed)) = some ([0], false) ∧
      next.memory.paused = true := by
  refine ⟨?_, ?_⟩
  · have hrun : (twoCores.huntProgram.system.runEvents { memory := {} }
        [huntBoth, .finish 0 { core := 0, passed := true }, .handle 0 {}]).map
          (fun loop => (probe loop.memory, loop.memory.clean)) = some ([0], 1) := by
      decide +kernel
    obtain ⟨loop, hloop, hview⟩ := Option.map_eq_some_iff.mp hrun
    obtain ⟨hprobe, hclean⟩ := Prod.mk.inj hview
    have hreach : StepSystem.ReachableBy twoCores.huntProgram.system (Orderly twoCores) loop := by
      refine StepSystem.ReachableBy.allowedRun (.start ⟨{}, rfl, rfl⟩) ?_ hloop
      refine ⟨⟨rfl, rfl, rfl, rfl⟩, fun _ _ => ⟨trivial, fun _ _ => ⟨rfl, fun _ _ => trivial⟩⟩⟩
    refine ⟨loop, hreach, hprobe, fun hunt hrow => ?_⟩
    have hflight : hunt.inFlight ≠ [] := by
      have hmask : hunt.inFlight = [0] := by simpa [probe, hrow] using hprobe
      simp [hmask]
    rw [((probe_answered_by_series twoCores hreach).1 hunt hrow hflight).1, hclean]
  · have hrun : (twoCores.huntProgram.system.runEvents { memory := {} } [huntBoth]).map
        (fun loop => (loop.queue.isEmpty, loop.workers.map Prod.fst,
          loop.memory.row.map (·.inFlight), twoCores.taken loop.memory underOther,
          loop.memory.row.all fun hunt => twoCores.inconsistent loop.memory hunt underOther)) =
        some (true, [0], some [0], true, true) := by
      decide +kernel
    obtain ⟨asked, hasked, hview⟩ := Option.map_eq_some_iff.mp hrun
    simp only [Prod.mk.injEq, List.isEmpty_iff] at hview
    obtain ⟨hqueue, hworkers, hmask, htaken, hstock⟩ := hview
    obtain ⟨hunt, hrow, hflight⟩ := Option.map_eq_some_iff.mp hmask
    rw [hrow, Option.all_some] at hstock
    have hreach : StepSystem.ReachableBy twoCores.huntProgram.system (Orderly twoCores) asked := by
      refine StepSystem.ReachableBy.allowedRun (.start ⟨{}, rfl, rfl⟩) ?_ hasked
      exact ⟨⟨rfl, rfl, rfl, rfl⟩, fun _ _ => trivial⟩
    have hany : (asked.workers.any fun worker => worker.1 = 0) = true := by
      have hzero : 0 ∈ asked.workers.map Prod.fst := by simp [hworkers]
      obtain ⟨worker, hworker, hserial⟩ := List.mem_map.mp hzero
      exact List.any_eq_true.mpr ⟨worker, hworker, decide_eq_true hserial⟩
    let failed : HuntLoop :=
      { asked with
        workers := asked.workers.filter (·.1 ≠ 0)
        queue := asked.queue ++ [.result 0 underOther] }
    have hfailed : twoCores.huntProgram.system.step asked (.finish 0 underOther) = some failed :=
      if_pos hany
    have hnext : failed.queue[0]? = some (.result 0 underOther) := by
      simp [failed, hqueue]
    have hreach' := StepSystem.ReachableBy.step hreach
      (show Orderly twoCores asked (.finish 0 underOther) from trivial) hfailed
    obtain ⟨next, hstep⟩ : ∃ next,
        twoCores.huntProgram.system.step failed (.handle 0 {}) = some next := by
      refine ⟨_, Option.map_eq_some_iff.mpr ⟨_, hnext, rfl⟩⟩
    obtain ⟨hlast, -, -, hpaused, -⟩ := (probe_answered_by_series twoCores hreach').2.2.2 0 {} 0
      underOther hunt next hnext ⟨hrow, htaken, rfl, hstock⟩ rfl hstep
    refine ⟨failed, next, hreach', hstep, ?_, hpaused⟩
    rw [hlast, Option.map_some, hflight]

/-- The first launch of the probe of core 0 fails, and the failure is reported under core 1,
which is at stock: the engine pauses, and the probe is not answered. -/
theorem failing_launch_unanswered :
    (twoCores.huntProgram.system.runEvents { memory := {} }
      [huntBoth, .finish 0 underOther, .handle 0 {}]).map
        (fun loop => (probe loop.memory, loop.memory.answers, loop.memory.paused)) =
      some ([0], [], true) := by
  decide +kernel

end HuntContext

end Tuner
end CoreCycler
