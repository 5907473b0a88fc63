import CoreCycler.Library.SearchLedger
import CoreCycler.Library.StepSystem
import CoreCycler.Tuner.HuntIsolation

/-!
# Guilty groups over a whole hunt

`huntSystem` runs a hunt against arbitrary answers, which intermittent hardware
need not give consistently.  Beside the hunt it remembers which groups were
answered as reproducing and which were split.  A step accounts for a group that
leaves `pending` when the group is split and probed, convicted, or itself tested
whole and clean.
-/

namespace CoreCycler
namespace Tuner
namespace Bisect

open Library Library.GroupTesting

/-! ## Hunts as a step system -/

/-- A hunt with the history its persisted state does not keep. -/
structure HuntRun where
  state : HuntState
  recorded : List (List CoreId)
  opened : List (List CoreId)
deriving DecidableEq

/-- A probe is asked for, or the mask in flight is answered. -/
inductive HuntEvent
  | ask
  | answer (reproduced : Bool)
deriving DecidableEq

/-- Every run of a hunt: it begins over any admissible sets, and each probe is
answered either way. -/
def huntSystem (maxNoReproduce : Nat) : StepSystem HuntRun HuntEvent where
  Start run :=
    (∃ candidates loaded observedFailureTime,
      begin candidates loaded observedFailureTime = .ok run.state) ∧
    run.recorded = [] ∧ run.opened = []
  step run event :=
    match event with
    | .ask =>
        some { run with
          state := (nextLiveSet run.state).2
          opened := (nextLiveSet run.state).2.parent :: run.opened }
    | .answer reproduced =>
        if run.state.inFlight = [] then
          none
        else
          some { run with
            state := record run.state reproduced maxNoReproduce
            recorded :=
              if reproduced then run.state.inFlight :: run.recorded else run.recorded }

/-- The group is off the work-list because it is itself being split and probed. -/
def SplitNow (state : HuntState) (group : List CoreId) : Prop :=
  state.parent = group ∧ state.inFlight = (split group).1 ∧ state.queue = [(split group).2]

/-- The step is a clean answer to the group's own whole-set re-probe. -/
def OwnWholeClean (run : HuntRun) (event : HuntEvent) (group : List CoreId) : Prop :=
  event = .answer false ∧ run.state.parent = group ∧ run.state.inFlight = group

/-- Every group recorded as reproducing that leaves `pending` in this step is split
and probed, convicted, or cleared by its own whole-set re-probe. -/
def Keeps (run : HuntRun) (event : HuntEvent) (next : HuntRun) : Prop :=
  ∀ group ∈ run.recorded, group ∈ run.state.pending →
    group ∈ next.state.pending ∨ SplitNow next.state group ∨ group ⊆ next.state.found ∨
      OwnWholeClean run event group

/-- A whole-set re-probe comes back clean while other groups are pending. -/
def CleanWholeOverPending (run : HuntRun) (event : HuntEvent) : Prop :=
  event = .answer false ∧ run.state.stage = .probe ∧
    run.state.inFlight = run.state.parent ∧ run.state.pending ≠ []

instance (run : HuntRun) (event : HuntEvent) : Decidable (CleanWholeOverPending run event) :=
  inferInstanceAs (Decidable (_ ∧ _ ∧ _ ∧ _))

/-- Every group ever recorded as reproducing is pending, waiting for its sibling's
answer, was split and probed itself, or is convicted. -/
def Accounted (run : HuntRun) : Prop :=
  ∀ group ∈ run.recorded,
    group ∈ run.state.pending ∨ group ∈ run.state.guiltyHalves ∨ group ∈ run.opened ∨
      group ⊆ run.state.found

variable {maxNoReproduce : Nat} {state : HuntState} {search : Search CoreId}

/-- What every reachable run keeps: the hunt represents a well-formed search whose
ledger is the run's. -/
def Ledgered (maxNoReproduce : Nat) (run : HuntRun) : Prop :=
  ∃ search root, Represents run.state search ∧ search.WellFormed maxNoReproduce ∧
    search.Ledger halving root run.recorded

theorem ledger_opened {candidates : List CoreId} (hnodup : candidates.Nodup)
    (loaded : List CoreId) :
    (openedSearch candidates loaded).Ledger halving (sorted candidates) [] := by
  have hsorted : (sorted candidates).Nodup := (sorted_perm candidates).nodup_iff.mpr hnodup
  rcases leadProbe_eq_nil_or (sorted candidates) (sorted loaded) with hlead | hlead
  · constructor <;> simp [openedSearch, hlead, Search.focusGroups, hsorted]
  · obtain ⟨core, hcore⟩ := List.length_eq_one_iff.mp hlead
    constructor <;> simp [openedSearch, hcore, Search.focusGroups, hsorted]

theorem leadProbe_subset (candidates loaded : List CoreId) :
    leadProbe (sorted candidates) (sorted loaded) ⊆ sorted candidates := by
  unfold leadProbe
  intro core hcore
  simp only at hcore
  split at hcore
  · simpa using (List.mem_filter.mp hcore).2
  · simp at hcore

theorem within_opened (candidates loaded : List CoreId) :
    (openedSearch candidates loaded).Within (sorted candidates) := by
  rcases leadProbe_eq_nil_or (sorted candidates) (sorted loaded) with hnil | hone
  · constructor <;> simp [openedSearch, hnil, Search.focusGroups]
  · obtain ⟨core, hcore⟩ := List.length_eq_one_iff.mp hone
    have hmem : core ∈ candidates := by
      simpa using leadProbe_subset candidates loaded
        (by rw [hcore]; exact List.mem_singleton_self core)
    constructor <;> simp [openedSearch, hcore, Search.focusGroups, hmem]

/-- A mask in flight is the open question. -/
theorem Represents.question_of_inFlight (hrep : Represents state search)
    (hflight : state.inFlight ≠ []) : search.question halving = some state.inFlight := by
  obtain ⟨-, -, -, hshape⟩ := hrep
  obtain ⟨focus, pending, found, retries⟩ := search
  cases focus with
  | lead probe => simp [Search.question, hshape.2.2.2.1.resolve_left hflight]
  | idle => exact absurd hshape.2.2.1 hflight
  | left group => simp [Search.question, hshape.2.2.1]
  | right group leftFailed =>
      rcases hshape.2.2.1 with ⟨hhalf, -⟩ | ⟨hnone, -⟩
      · simp [Search.question, hhalf]
      · exact absurd hnone hflight
  | whole group =>
      rcases hshape.2.2.1 with ⟨hwhole, -⟩ | ⟨hnone, -⟩
      · simp [Search.question, hwhole]
      · exact absurd hnone hflight
  | closed => exact absurd hshape.2.1 hflight

theorem ledgered_start {run : HuntRun} (hstart : (huntSystem maxNoReproduce).Start run) :
    Ledgered maxNoReproduce run := by
  obtain ⟨⟨candidates, loaded, observedFailureTime, hbegin⟩, hrecorded, -⟩ := hstart
  obtain ⟨⟨hne, hnodup, -⟩, -, -, hstate⟩ := begin_eq_ok_iff.mp hbegin
  refine ⟨openedSearch candidates loaded, sorted candidates, ?_, ?_, ?_⟩
  · rw [hstate]
    exact represents_opened candidates loaded observedFailureTime
  · exact wellFormed_opened hne loaded maxNoReproduce
  · rw [hrecorded]
    exact ledger_opened hnodup loaded

theorem ledgered_step (hlimit : 1 ≤ maxNoReproduce) {run next : HuntRun} {event : HuntEvent}
    (hrun : Ledgered maxNoReproduce run)
    (hstep : (huntSystem maxNoReproduce).step run event = some next) :
    Ledgered maxNoReproduce next := by
  obtain ⟨search, root, hrep, hwf, hledger⟩ := hrun
  cases event with
  | ask =>
      obtain rfl := Option.some.inj hstep
      exact ⟨search.ask, root, (hrep.nextLiveSet hwf).2.1, hwf.ask hlimit, hledger.ask⟩
  | answer reproduced =>
      simp only [huntSystem, Option.ite_none_left_eq_some] at hstep
      obtain ⟨hflight, hnext⟩ := hstep
      obtain rfl := Option.some.inj hnext
      have hquestion := hrep.question_of_inFlight hflight
      refine ⟨search.answer halving maxNoReproduce reproduced, root,
        hrep.record hwf hquestion rfl reproduced, hwf.answer reproduced, ?_⟩
      have hanswer := hledger.answer maxNoReproduce reproduced
      cases reproduced <;> simpa [Search.note, hquestion] using hanswer

theorem ledgered_of_reachable (hlimit : 1 ≤ maxNoReproduce) {run : HuntRun}
    (hreach : (huntSystem maxNoReproduce).Reachable run) : Ledgered maxNoReproduce run :=
  StepSystem.ReachableBy.invariant (fun _ => ledgered_start)
    (fun _ _ _ hrun _ hstep => ledgered_step hlimit hrun hstep) hreach

/-! ## The step that forgets -/

/-- A mask in flight that equals the split's parent is a whole-set re-probe. -/
theorem Represents.focus_whole (hrep : Represents state search)
    (hwf : search.WellFormed maxNoReproduce) (hstage : state.stage = .probe)
    (hflight : state.inFlight ≠ []) (hwhole : state.inFlight = state.parent) :
    search.focus = .whole state.parent := by
  obtain ⟨-, -, -, hshape⟩ := hrep
  obtain ⟨focus, pending, found, retries⟩ := search
  cases focus with
  | lead probe => exact absurd (hstage.symm.trans hshape.1) (by decide)
  | idle => exact absurd hshape.2.2.1 hflight
  | left group =>
      have hlen : 2 ≤ group.length := hwf.focus_two group (by simp [Search.focusGroups])
      obtain ⟨-, hparent, hhalf, -⟩ := hshape
      exact absurd (hhalf.symm.trans (hwhole.trans hparent)) (split_fst_ne hlen)
  | right group leftFailed =>
      have hlen : 2 ≤ group.length := hwf.focus_two group (by simp [Search.focusGroups])
      obtain ⟨-, hparent, ⟨hhalf, -⟩ | ⟨hnone, -⟩, -⟩ := hshape
      · exact absurd (hhalf.symm.trans (hwhole.trans hparent)) (split_snd_ne hlen)
      · exact absurd hnone hflight
  | whole group => simp [hshape.2.1]
  | closed => exact absurd hshape.2.1 hflight

/-- A clean whole-set re-probe over other pending groups forgets every one of them. -/
theorem forgets_of_cleanWhole {run next : HuntRun} {event : HuntEvent}
    (hrun : Ledgered maxNoReproduce run)
    (hstep : (huntSystem maxNoReproduce).step run event = some next)
    (hclean : CleanWholeOverPending run event) : ¬ Keeps run event next := by
  obtain ⟨search, root, hrep, hwf, hledger⟩ := hrun
  obtain ⟨rfl, hstage, hwhole, hpending⟩ := hclean
  simp only [huntSystem, Option.ite_none_left_eq_some] at hstep
  obtain ⟨hflight, hnext⟩ := hstep
  obtain rfl := Option.some.inj hnext
  have hfocus := hrep.focus_whole hwf hstage hflight hwhole
  have hrecorded := hledger.all_recorded (by simp [Search.focusGroups, hfocus])
  have hnodup := hledger.nodup
  rw [← hrep.pending_eq] at hrecorded hnodup
  simp only [Search.focusGroups, hfocus, List.flatten_cons, List.flatten_nil,
    List.append_nil] at hnodup
  obtain ⟨group, rest, hgroup⟩ := List.exists_cons_of_ne_nil hpending
  have hne : group ≠ [] := hwf.pending_ne_nil group (by rw [← hrep.pending_eq, hgroup]; simp)
  obtain ⟨core, hcore⟩ := List.exists_mem_of_ne_nil group hne
  have hfresh : core ∉ search.found ++ run.state.parent := by
    intro hmem
    have hlater : core ∈ run.state.pending.flatten := by
      simp only [List.mem_flatten]
      exact ⟨group, by simp [hgroup], hcore⟩
    exact List.disjoint_of_nodup_append hnodup hmem hlater
  intro hkeeps
  have hafter : record run.state false maxNoReproduce =
      recordWholeSet { run.state with launchesDone := 0, inFlight := [] } false :=
    record_of_whole hstage hwhole
  rcases hkeeps group (hrecorded group (by simp [hgroup])) (by simp [hgroup]) with
    hstays | hsplit | hfound | hown
  · simp [hafter, recordWholeSet] at hstays
  · have hparent := hsplit.1
    simp only [hafter, recordWholeSet, Bool.false_eq_true, if_false] at hparent
    exact hne hparent.symm
  · have hmem := hfound hcore
    simp only [hafter, recordWholeSet, Bool.false_eq_true, if_false] at hmem
    rw [hrep.found_eq, mem_sorted] at hmem
    exact hfresh (List.mem_append_left _ hmem)
  · exact hfresh (List.mem_append_right _ (by rwa [hown.2.1]))

/-- Every other step keeps account of the groups it takes off the work-list. -/
theorem keeps_of_not_cleanWhole {run next : HuntRun} {event : HuntEvent}
    (hrun : Ledgered maxNoReproduce run)
    (hstep : (huntSystem maxNoReproduce).step run event = some next)
    (hclean : ¬ CleanWholeOverPending run event) : Keeps run event next := by
  obtain ⟨search, root, hrep, hwf, hledger⟩ := hrun
  intro group hrecorded hmem
  rw [hrep.pending_eq] at hmem
  cases event with
  | ask =>
      obtain rfl := Option.some.inj hstep
      obtain ⟨-, hnext, -⟩ := hrep.nextLiveSet hwf
      rcases Search.kept_ask hmem with hstays | hsplit | ⟨core, hfound, rfl⟩
      · exact .inl (by rwa [hnext.pending_eq])
      · have hshape := hnext.shape
        rw [hsplit] at hshape
        exact .inr (.inl ⟨hshape.2.1, hshape.2.2.1, hshape.2.2.2.1⟩)
      · refine .inr (.inr (.inl ?_))
        simpa [hnext.found_eq] using hfound
  | answer reproduced =>
      simp only [huntSystem, Option.ite_none_left_eq_some] at hstep
      obtain ⟨hflight, hnext⟩ := hstep
      obtain rfl := Option.some.inj hnext
      have hquestion := hrep.question_of_inFlight hflight
      have hafter := hrep.record hwf hquestion rfl reproduced
      rcases hledger.kept_answer hrecorded hmem maxNoReproduce reproduced with
        hstays | ⟨rfl, whole, hfocus⟩
      · exact .inl (by rwa [hafter.pending_eq])
      · have hshape := hrep.shape
        rw [hfocus] at hshape
        obtain ⟨hstage, hparent, hopen, -⟩ := hshape
        have hwhole : run.state.inFlight = run.state.parent := by
          rcases hopen with ⟨hlive, -⟩ | ⟨hnone, -⟩
          · rw [hlive, hparent]
          · exact absurd hnone hflight
        refine absurd ⟨rfl, hstage, hwhole, ?_⟩ hclean
        rw [hrep.pending_eq]
        exact List.ne_nil_of_mem hmem

/-! ## The account over a run -/

/-- The halves noted as guilty are the first half of the split under test. -/
theorem Represents.mem_guiltyHalves (hrep : Represents state search) {half : List CoreId} :
    half ∈ state.guiltyHalves ↔
      ∃ group, search.focus = .right group true ∧ half = (split group).1 := by
  obtain ⟨-, -, -, hshape⟩ := hrep
  obtain ⟨focus, pending, found, retries⟩ := search
  cases focus with
  | lead probe => simp [hshape.2.2.2.2.2.2]
  | idle => simp [hshape.2.2.2.2]
  | left group => simp [hshape.2.2.2.2]
  | right group leftFailed => cases leftFailed <;> simp [hshape.2.2.2]
  | whole group => simp [hshape.2.2.2]
  | closed => simp [hshape.2.2]

/-- An answer leaves the split under test as it was, or concludes it. -/
theorem record_parent (state : HuntState) (reproduced : Bool) (maxNoReproduce : Nat) :
    (record state reproduced maxNoReproduce).parent = state.parent ∨
      (record state reproduced maxNoReproduce).parent = [] := by
  simp only [record, recordWholeSet]
  split_ifs <;> simp_all

/-- The account of a run, together with what carries it: the split under test was
opened by the run. -/
structure AccountedRun (maxNoReproduce : Nat) (run : HuntRun) : Prop where
  ledgered : Ledgered maxNoReproduce run
  parent_opened : run.state.parent ≠ [] → run.state.parent ∈ run.opened
  accounted : Accounted run

theorem accounted_start {run : HuntRun} (hstart : (huntSystem maxNoReproduce).Start run) :
    AccountedRun maxNoReproduce run := by
  refine ⟨ledgered_start hstart, ?_, ?_⟩
  · obtain ⟨⟨_, _, _, hbegin⟩, -, -⟩ := hstart
    obtain ⟨-, -, -, hstate⟩ := begin_eq_ok_iff.mp hbegin
    simp [hstate, opened]
  · obtain ⟨-, hrecorded, -⟩ := hstart
    simp [Accounted, hrecorded]

theorem accounted_ask {run next : HuntRun} (hlimit : 1 ≤ maxNoReproduce)
    (hrun : AccountedRun maxNoReproduce run)
    (hstep : (huntSystem maxNoReproduce).step run .ask = some next) :
    AccountedRun maxNoReproduce next := by
  have hkeeps : Keeps run .ask next :=
    keeps_of_not_cleanWhole hrun.ledgered hstep fun hclean => by cases hclean.1
  refine ⟨ledgered_step hlimit hrun.ledgered hstep, ?_, ?_⟩
  · obtain rfl := Option.some.inj hstep
    exact fun _ => List.mem_cons_self
  intro group hrecorded
  obtain ⟨search, root, hrep, hwf, -⟩ := hrun.ledgered
  have hnext := (hrep.nextLiveSet hwf).2.1
  obtain rfl := Option.some.inj hstep
  rcases hrun.accounted group hrecorded with hpending | hhalf | hopened | hfound
  · rcases hkeeps group hrecorded hpending with hstays | hsplit | hfound | hown
    · exact .inl hstays
    · exact .inr (.inr (.inl (hsplit.1 ▸ List.mem_cons_self)))
    · exact .inr (.inr (.inr hfound))
    · exact absurd hown.1 (by simp)
  · obtain ⟨parent, hfocus, rfl⟩ := hrep.mem_guiltyHalves.mp hhalf
    refine .inr (.inl (hnext.mem_guiltyHalves.mpr ⟨parent, ?_, rfl⟩))
    simp [Search.ask, hfocus]
  · exact .inr (.inr (.inl (List.mem_cons_of_mem _ hopened)))
  · refine .inr (.inr (.inr fun core hcore => ?_))
    have hmem := hfound hcore
    rw [hrep.found_eq, mem_sorted] at hmem
    simpa [hnext.found_eq] using Search.found_subset_ask hmem

theorem accounted_answer {run next : HuntRun} {reproduced : Bool} (hlimit : 1 ≤ maxNoReproduce)
    (hrun : AccountedRun maxNoReproduce run)
    (hclean : ¬ CleanWholeOverPending run (.answer reproduced))
    (hstep : (huntSystem maxNoReproduce).step run (.answer reproduced) = some next) :
    AccountedRun maxNoReproduce next := by
  have hkeeps := keeps_of_not_cleanWhole hrun.ledgered hstep hclean
  have hledgered := ledgered_step hlimit hrun.ledgered hstep
  simp only [huntSystem, Option.ite_none_left_eq_some] at hstep
  obtain ⟨hflight, hnext⟩ := hstep
  obtain rfl := Option.some.inj hnext
  have hparent : (record run.state reproduced maxNoReproduce).parent ≠ [] →
      (record run.state reproduced maxNoReproduce).parent ∈ run.opened := by
    intro hne
    rcases record_parent run.state reproduced maxNoReproduce with hsame | hnone
    · rw [hsame] at hne ⊢
      exact hrun.parent_opened hne
    · exact absurd hnone hne
  refine ⟨hledgered, hparent, ?_⟩
  obtain ⟨search, root, hrep, hwf, hledger⟩ := hrun.ledgered
  have hquestion := hrep.question_of_inFlight hflight
  have hafter := hrep.record hwf hquestion rfl reproduced
  intro group hrecorded
  by_cases hold : group ∈ run.recorded
  -- A recorded group was pending, a guilty half, opened, or found before the answer.
  · rcases hrun.accounted group hold with hpending | hhalf | hopened | hfound
    · have hne : group ≠ [] := hwf.pending_ne_nil group (by rwa [← hrep.pending_eq])
      rcases hkeeps group hold hpending with hstays | hsplit | hfound | hown
      · exact .inl hstays
      · exact .inr (.inr (.inl (hsplit.1 ▸ hparent (hsplit.1 ▸ hne))))
      · exact .inr (.inr (.inr hfound))
      · exact .inr (.inr (.inl (hown.2.1 ▸ hrun.parent_opened (hown.2.1 ▸ hne))))
    · obtain ⟨parent, hfocus, rfl⟩ := hrep.mem_guiltyHalves.mp hhalf
      refine .inl ?_
      rw [hafter.pending_eq]
      exact Search.left_half_pending hfocus halving maxNoReproduce reproduced
    · exact .inr (.inr (.inl hopened))
    · refine .inr (.inr (.inr fun core hcore => ?_))
      have hmem := hfound hcore
      rw [hrep.found_eq, mem_sorted] at hmem
      have hlead : ∀ probe, search.focus ≠ .lead probe := by
        intro probe hfocus
        simp [(hledger.lead_probe probe hfocus).1] at hold
      simpa [hafter.found_eq] using
        Search.found_subset_answer hlead halving maxNoReproduce reproduced hmem
  · -- The group is the one answered as reproducing just now.
    obtain ⟨rfl, rfl⟩ : reproduced = true ∧ group = run.state.inFlight := by
      cases reproduced <;> simp_all
    rcases Search.failed_question_kept hquestion maxNoReproduce with
      hpending | ⟨parent, hfocus, hhalf⟩ | hfound
    · exact .inl (by rwa [hafter.pending_eq])
    · exact .inr (.inl (hafter.mem_guiltyHalves.mpr ⟨parent, hfocus, hhalf⟩))
    · refine .inr (.inr (.inr fun core hcore => ?_))
      simpa [hafter.found_eq] using hfound hcore

/-- **Guilty groups are kept.**  A step of a hunt loses a group recorded as
reproducing exactly when it answers a whole-set re-probe clean while other groups
are pending.  In a run without such a step every recorded group is accounted for. -/
theorem known_guilty_kept_iff {maxNoReproduce : Nat} (hlimit : 1 ≤ maxNoReproduce) :
    (∀ run event next, (huntSystem maxNoReproduce).Reachable run →
      (huntSystem maxNoReproduce).step run event = some next →
      (Keeps run event next ↔ ¬ CleanWholeOverPending run event)) ∧
    (∀ run, (huntSystem maxNoReproduce).ReachableBy
        (fun run event => ¬ CleanWholeOverPending run event) run → Accounted run) := by
  constructor
  · intro run event next hreach hstep
    have hrun := ledgered_of_reachable hlimit hreach
    constructor
    · exact fun hkeeps hclean => forgets_of_cleanWhole hrun hstep hclean hkeeps
    · exact keeps_of_not_cleanWhole hrun hstep
  · intro run hreach
    have hrun : AccountedRun maxNoReproduce run := by
      refine hreach.invariant (fun _ => accounted_start) ?_
      intro run event next hrun hclean hstep
      cases event with
      | ask => exact accounted_ask hlimit hrun hstep
      | answer reproduced => exact accounted_answer hlimit hrun hclean hstep
    exact hrun.accounted

/-- The start of a hunt over four live cores, none of which was under load. -/
def fourLive : HuntRun := ⟨opened [0, 1, 2, 3] [9] 0, [], []⟩

/-- Both halves reproduce; then neither core of the first half does, nor that half
as a whole. -/
def halfStopsReproducing : List HuntEvent :=
  [.ask, .answer true, .ask, .answer true, .ask, .answer false, .ask, .answer false, .ask]

/-- The second half was recorded as reproducing and is never tested again. -/
theorem clean_whole_forgets :
    begin [0, 1, 2, 3] [9] 0 = .ok fourLive.state ∧
      ∃ run next,
        (huntSystem 1).runEvents fourLive halfStopsReproducing = some run ∧
        (huntSystem 1).step run (.answer false) = some next ∧
        next.state.stage = .exhausted ∧ ¬ Keeps run (.answer false) next := by
  refine ⟨begin_eq_ok_iff.mpr ⟨by decide, by decide, by decide, rfl⟩, ?_⟩
  refine ⟨_, _, rfl, rfl, by decide, ?_⟩
  intro hkeeps
  rcases hkeeps [2, 3] (by decide) (by decide) with hstays | hsplit | hfound | hown
  · revert hstays
    decide
  · have hparent := hsplit.1
    revert hparent
    decide
  · revert hfound
    decide
  · have hparent := hown.2.1
    revert hparent
    decide

/-- While both halves still reproduce, splitting the first keeps the second. -/
theorem known_guilty_kept_iff_four :
    ∃ run next,
      (huntSystem 1).runEvents fourLive (halfStopsReproducing.take 4) = some run ∧
      (huntSystem 1).step run .ask = some next ∧
      [0, 1] ∈ run.recorded ∧ [2, 3] ∈ run.recorded ∧ Keeps run .ask next := by
  have hstart : (huntSystem 1).Reachable fourLive :=
    .start ⟨⟨_, _, _, begin_eq_ok_iff.mpr ⟨by decide, by decide, by decide, rfl⟩⟩, rfl, rfl⟩
  obtain ⟨run, hrun⟩ : ∃ run,
      (huntSystem 1).runEvents fourLive (halfStopsReproducing.take 4) = some run := ⟨_, rfl⟩
  obtain ⟨next, hnext⟩ : ∃ next, (huntSystem 1).step run .ask = some next := ⟨_, rfl⟩
  have hkeeps := ((known_guilty_kept_iff (le_refl 1)).1 run .ask next
    (hstart.runEvents (fun _ _ _ => trivial) hrun) hnext).mpr fun hclean => by cases hclean.1
  obtain rfl := Option.some.inj hrun
  exact ⟨_, next, rfl, hnext, by decide, by decide, hkeeps⟩

end Bisect
end Tuner
end CoreCycler
