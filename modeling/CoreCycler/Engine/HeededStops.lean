import CoreCycler.Engine.StopProtocol

/-!
# A stop is heeded

In a run that clears no stop away, the stop event stays set from the first request on.  So once
a call of `stop` has returned, nothing is launched, no lane that was not launched gets a
verdict, and every step of the run brings its end nearer.
-/

namespace CoreCycler
namespace Engine
namespace StopProtocol

open Library Supervisor

/-! ## What a run keeps to -/

/-- The run has cleared the stop event, and not ended. -/
def RunPhase.opened : RunPhase → Bool
  | .called | .locked | .marked | .ended => false
  | _ => true

/-- The run holds the lifecycle lock. -/
def RunPhase.holds : RunPhase → Bool
  | .locked | .marked | .cleared => true
  | _ => false

/-- No batch is supervised, and the lock is not held. -/
def RunPhase.plain : RunPhase → Bool
  | .locked | .marked | .cleared | .supervising _ _ => false
  | _ => true

structure Steady (state : Control) : Prop where
  requested : state.returned = true → state.requested = true
  asked : state.requested = false → state.calls = 0 ∧ ∀ changed, state.lock ≠ some (.stop changed)
  heard : state.phase.opened = true → state.requested = true → state.stopEvent = true
  placed : ∀ work batch, state.phase = .supervising work batch →
    batch.Placed ∧ (batch.sup.stop = true → state.stopEvent = true)
  held : state.lock = some .run → state.phase.holds = true
  scheduler : state.phase.holds = true → state.kind = .coreScheduler
  noLaunch : state.lateLaunches = []
  noVerdict : state.lateVerdicts = []

/-- A step of the run that neither clears the stop event nor is a stage of its batch. -/
structure Follows (state next : Control) : Prop where
  requested : next.requested = state.requested
  calls : next.calls = state.calls
  locked : ∀ changed, next.lock = some (.stop changed) → state.lock = some (.stop changed)
  returned : next.returned = state.returned
  launches : next.lateLaunches = state.lateLaunches
  verdicts : next.lateVerdicts = state.lateVerdicts
  stops : state.stopEvent = true → next.stopEvent = true
  opened : next.phase.opened = true → state.phase.opened = true
  placed : ∀ work batch, next.phase = .supervising work batch →
    batch.Placed ∧ (batch.sup.stop = true → next.stopEvent = true)
  held : next.lock = some .run → next.phase.holds = true
  scheduler : next.phase.holds = true → next.kind = .coreScheduler

variable {state next : Control} {classes : CharClasses}

theorem Steady.follow (hsteady : Steady state) (hfollows : Follows state next) : Steady next where
  requested hreturned := by
    rw [hfollows.requested]
    exact hsteady.requested (hfollows.returned ▸ hreturned)
  asked hrequested := by
    rw [hfollows.requested] at hrequested
    obtain ⟨hcalls, hlock⟩ := hsteady.asked hrequested
    exact ⟨hfollows.calls.trans hcalls, fun changed hheld =>
      hlock changed (hfollows.locked changed hheld)⟩
  heard hopened hrequested :=
    hfollows.stops (hsteady.heard (hfollows.opened hopened) (hfollows.requested ▸ hrequested))
  placed := hfollows.placed
  held := hfollows.held
  scheduler := hfollows.scheduler
  noLaunch := hfollows.launches.trans hsteady.noLaunch
  noVerdict := hfollows.verdicts.trans hsteady.noVerdict

/-- What the steps of a run have in common: they leave alone what was noted of the stops. -/
structure Unnoted (state next : Control) : Prop where
  requested : next.requested = state.requested
  calls : next.calls = state.calls
  returned : next.returned = state.returned
  launches : next.lateLaunches = state.lateLaunches
  verdicts : next.lateVerdicts = state.lateVerdicts
  lock : next.lock = state.lock
  stops : state.stopEvent = true → next.stopEvent = true

theorem holds_of_plain {phase : RunPhase} (hplain : phase.plain = true) : phase.holds = false := by
  cases phase <;> first | rfl | cases hplain

/-- A step to a stage without a batch. -/
theorem Unnoted.plain (hunnoted : Unnoted state next) (hsteady : Steady state)
    (hopened : state.phase.opened = true) (hholds : state.phase.holds = false)
    (hplain : next.phase.plain = true) : Follows state next where
  requested := hunnoted.requested
  calls := hunnoted.calls
  locked _ hheld := hunnoted.lock ▸ hheld
  returned := hunnoted.returned
  launches := hunnoted.launches
  verdicts := hunnoted.verdicts
  stops := hunnoted.stops
  opened _ := hopened
  placed work batch hphase := by
    rw [hphase] at hplain
    cases hplain
  held hlock := by
    rw [hunnoted.lock] at hlock
    rw [hsteady.held hlock] at hholds
    cases hholds
  scheduler hnext := by
    rw [holds_of_plain hplain] at hnext
    cases hnext

/-! ## Fresh batches -/

theorem Plan.lanes_distinct (plan : Plan) : (plan.lanes.map Lane.coreId).Nodup := by
  have hcores : ∀ cores : List Nat,
      ((cores.filterMap plan.laneOf).map Lane.coreId).Sublist cores := by
    intro cores
    induction cores with
    | nil => exact .refl _
    | cons core rest ih =>
        cases hlane : plan.laneOf core with
        | none =>
            rw [List.filterMap_cons_none hlane]
            exact ih.cons core
        | some lane =>
            rw [List.filterMap_cons_some hlane, List.map_cons, plan.own core lane hlane]
            exact ih.cons_cons core
  exact plan.distinct.sublist (hcores plan.cores)

theorem placed_fresh (state : Control) (phase : String) {stopOnFirstFailure : Bool}
    {lanes : List Lane} (duration : ℚ) (hdistinct : (lanes.map Lane.coreId).Nodup)
    (halone : stopOnFirstFailure = false → lanes.length ≤ 1) :
    (state.freshBatch phase stopOnFirstFailure lanes duration).Placed where
  distinct := by
    show ((lanes.map fun lane => ({ lane } : LaneRun)).map fun run => run.lane.coreId).Nodup
    rw [List.map_map]
    exact hdistinct
  alone hsettings := by
    show (lanes.map fun lane => ({ lane } : LaneRun)).length ≤ 1
    rw [List.length_map]
    exact halone hsettings
  driven core hdriver := absurd hdriver Bool.false_ne_true
  standing := trivial

/-- A step to a fresh batch, which starts out with the stop event of the run. -/
theorem Unnoted.batch (hunnoted : Unnoted state next) (hsteady : Steady state)
    (hopened : state.phase.opened = true) (hholds : state.phase.holds = false) {work : Work}
    {phase : String} {stopOnFirstFailure : Bool} {lanes : List Lane} {duration : ℚ}
    (hphase : next.phase =
      .supervising work (next.freshBatch phase stopOnFirstFailure lanes duration))
    (hdistinct : (lanes.map Lane.coreId).Nodup)
    (halone : stopOnFirstFailure = false → lanes.length ≤ 1) : Follows state next where
  requested := hunnoted.requested
  calls := hunnoted.calls
  locked _ hheld := hunnoted.lock ▸ hheld
  returned := hunnoted.returned
  launches := hunnoted.launches
  verdicts := hunnoted.verdicts
  stops := hunnoted.stops
  opened _ := hopened
  placed other batch hother := by
    rw [hphase] at hother
    injection hother with hwork hbatch
    rw [← hbatch]
    exact ⟨placed_fresh next phase duration hdistinct halone, id⟩
  held hlock := by
    rw [hunnoted.lock] at hlock
    rw [hsteady.held hlock] at hholds
    cases hholds
  scheduler hnext := by
    rw [hphase] at hnext
    cases hnext

/-! ## The steps of a run -/

/-- A verdict without a launch is noted only once a stop has returned. -/
theorem note_early (hearly : state.returned = false) (core : Nat) : state.note core = state := by
  rw [Control.note, if_neg (by rw [hearly]; decide)]

theorem notes_early (hearly : state.returned = false) (cores : List Nat) :
    state.notes cores = state := by
  induction cores with
  | nil => rfl
  | cons core rest ih =>
      rw [Control.notes, List.foldl_cons, note_early hearly]
      exact ih

theorem unnoted_afterFailure (state : Control) : Unnoted state state.afterFailure where
  requested := rfl
  calls := rfl
  returned := rfl
  launches := rfl
  verdicts := rfl
  lock := rfl
  stops hstop := by
    show (state.stopEvent || state.plan.stopOnError) = true
    rw [hstop, Bool.true_or]

theorem Unnoted.trans {last : Control} (hfirst : Unnoted state next)
    (hsecond : Unnoted next last) : Unnoted state last where
  requested := hsecond.requested.trans hfirst.requested
  calls := hsecond.calls.trans hfirst.calls
  returned := hsecond.returned.trans hfirst.returned
  launches := hsecond.launches.trans hfirst.launches
  verdicts := hsecond.verdicts.trans hfirst.verdicts
  lock := hsecond.lock.trans hfirst.lock
  stops hstop := hsecond.stops (hfirst.stops hstop)

/-- Results, the place in the cycles and the stage are no matter of the stops. -/
theorem unnoted_moved (state : Control) (phase : RunPhase) (rest : List Nat) (cyclesLeft : Nat)
    (results : List StressResult) :
    Unnoted state { state with phase, rest, cyclesLeft, results } := ⟨rfl, rfl, rfl, rfl, rfl, rfl, id⟩

theorem unnoted_conclude (state : Control) (result : StressResult) :
    Unnoted state (state.conclude result) := unnoted_moved state _ _ _ _

theorem unnoted_afterRest (state : Control) (lane : Lane) :
    Unnoted state (state.afterRest lane) ∧ (state.afterRest lane).phase = .tested := by
  unfold Control.afterRest
  split
  · exact ⟨unnoted_moved state _ _ _ _, rfl⟩
  · exact ⟨unnoted_conclude state _, rfl⟩

/-- The end of a batch leads to a stage without one. -/
theorem follows_collect (hsteady : Steady state) {work : Work} {batch : Batch}
    (hphase : state.phase = .supervising work batch) :
    Follows state (state.collect work batch) := by
  have hopened : state.phase.opened = true := by rw [hphase]; rfl
  have hholds : state.phase.holds = false := by rw [hphase]; rfl
  have hmoved (phase : RunPhase) (results : List StressResult) (hplain : phase.plain = true) :
      Follows state { state with phase, results } :=
    (unnoted_moved state phase state.rest state.cyclesLeft results).plain hsteady hopened hholds
      hplain
  have hfailed (result : StressResult) :
      Follows state (state.afterFailure.conclude result) :=
    ((unnoted_afterFailure state).trans (unnoted_conclude _ result)).plain hsteady hopened
      hholds rfl
  cases work with
  | all => exact hmoved .ended _ rfl
  | solo lane =>
      unfold Control.collect
      dsimp only
      split
      · exact hmoved .tested state.results rfl
      · split_ifs
        · exact hmoved (.varying lane true) state.results rfl
        · exact hmoved (.resting lane) state.results rfl
        · exact hfailed _
  | segment lane =>
      unfold Control.collect
      dsimp only
      split
      · have hunnoted : Unnoted state
            { state with stopEvent := true, phase := .resting lane } :=
          ⟨rfl, rfl, rfl, rfl, rfl, rfl, fun _ => rfl⟩
        exact hunnoted.plain hsteady hopened hholds rfl
      · split_ifs
        · exact hmoved (.varying lane false) state.results rfl
        · exact hfailed _

theorem follows_testCore (hsteady : Steady state) (hopened : state.phase.opened = true)
    (hholds : state.phase.holds = false) (core : Nat) (rest : List Nat) :
    Follows state (state.testCore core rest) := by
  have hmoved (phase : RunPhase) : Unnoted state { state with phase, rest } :=
    unnoted_moved state phase rest state.cyclesLeft state.results
  unfold Control.testCore
  dsimp only
  split
  · exact (hmoved .tested).plain hsteady hopened hholds rfl
  · rename_i lane _
    split_ifs
    · exact (hmoved (.settling lane)).plain hsteady hopened hholds rfl
    · exact (hmoved _).batch hsteady hopened hholds rfl (List.nodup_singleton _)
        fun _ => le_rfl

theorem follows_prepare (hsteady : Steady state) (hphase : state.phase = .preparing)
    (hknown : state.returned = true → ∀ core ∈ state.plan.cores,
      (state.plan.laneOf core).isSome = true) : Follows state state.prepare := by
  have hopened : state.phase.opened = true := by rw [hphase]; rfl
  have hholds : state.phase.holds = false := by rw [hphase]; rfl
  unfold Control.prepare
  split
  · rename_i core hfind
    have hearly : state.returned = false := by
      rw [← Bool.not_eq_true]
      intro hreturned
      have hsome := hknown hreturned core (List.mem_of_find?_eq_some hfind)
      have hnone := List.find?_some hfind
      rw [Option.isNone_iff_eq_none] at hnone
      rw [hnone] at hsome
      cases hsome
    dsimp only
    rw [note_early (by exact hearly)]
    exact (unnoted_moved state .ended _ _ _).plain hsteady hopened hholds rfl
  · split_ifs
    · exact (unnoted_moved state .ended _ _ _).plain hsteady hopened hholds rfl
    · exact (unnoted_moved state .sizing _ _ _).plain hsteady hopened hholds rfl

theorem follows_proceed (hsteady : Steady state) (hattentive : Attentive state .proceed)
    (hstep : state.proceed = some next) : Follows state next := by
  have hmoved {phase : RunPhase} {rest : List Nat} {cyclesLeft : Nat}
      (hopened : state.phase.opened = true) (hholds : state.phase.holds = false)
      (hplain : phase.plain = true) :
      Follows state { state with phase, rest, cyclesLeft } :=
    (unnoted_moved state phase rest cyclesLeft state.results).plain hsteady hopened hholds hplain
  unfold Control.proceed at hstep
  split at hstep
  · rename_i hphase
    cases hstep
    exact follows_prepare hsteady hphase fun hreturned => hattentive hreturned hphase
  · rename_i hphase
    split at hstep
    · cases hstep
      exact hmoved (by rw [hphase]; rfl) (by rw [hphase]; rfl) rfl
    · cases hstep
      exact hmoved (by rw [hphase]; rfl) (by rw [hphase]; rfl) rfl
  · rename_i complete hphase
    have hopened : state.phase.opened = true := by rw [hphase]; rfl
    have hholds : state.phase.holds = false := by rw [hphase]; rfl
    split at hstep
    · cases hstep
      exact hmoved hopened hholds (by split <;> rfl)
    · rename_i core rest _
      split_ifs at hstep
      · cases hstep
        exact hmoved hopened hholds rfl
      · cases hstep
        exact follows_testCore hsteady hopened hholds core rest
  · rename_i work batch hphase
    split_ifs at hstep
    cases hstep
    exact follows_collect hsteady hphase
  · rename_i lane hphase
    have hopened : state.phase.opened = true := by rw [hphase]; rfl
    have hholds : state.phase.holds = false := by rw [hphase]; rfl
    split_ifs at hstep
    · cases hstep
      exact hmoved hopened hholds rfl
    · cases hstep
      obtain ⟨hunnoted, htested⟩ := unnoted_afterRest state lane
      exact hunnoted.plain hsteady hopened hholds (by rw [htested]; rfl)
  · rename_i hphase
    have hopened : state.phase.opened = true := by rw [hphase]; rfl
    have hholds : state.phase.holds = false := by rw [hphase]; rfl
    split_ifs at hstep <;> cases hstep <;> exact hmoved hopened hholds rfl
  · rename_i hphase
    have hopened : state.phase.opened = true := by rw [hphase]; rfl
    have hholds : state.phase.holds = false := by rw [hphase]; rfl
    split_ifs at hstep
    cases hstep
    have hunnoted : Unnoted state { state with lifecycle := .finished, phase := .ended } :=
      ⟨rfl, rfl, rfl, rfl, rfl, rfl, id⟩
    exact hunnoted.plain hsteady hopened hholds rfl
  · cases hstep

theorem plain_next (stopEvent : Bool) :
    (if stopEvent = true then RunPhase.finishing else .nextCore true).plain = true := by
  split <;> rfl

theorem follows_idle (hsteady : Steady state) {error : Option String} {tripped : Bool}
    (hattentive : Attentive state (.idle error tripped))
    (hstep : state.idle error tripped = some next) : Follows state next := by
  let watched : Control := { state with stopEvent := state.stopEvent || tripped }
  have hwatched : Unnoted state watched :=
    ⟨rfl, rfl, rfl, rfl, rfl, rfl, fun hstop => by
      show (state.stopEvent || tripped) = true
      rw [hstop, Bool.true_or]⟩
  have hfailed : Unnoted state (if error.isSome then watched.afterFailure else watched) := by
    split_ifs
    · exact hwatched.trans (unnoted_afterFailure watched)
    · exact hwatched
  unfold Control.idle at hstep
  dsimp only at hstep
  split at hstep
  · rename_i lane hphase
    have hopened : state.phase.opened = true := by rw [hphase]; rfl
    have hholds : state.phase.holds = false := by rw [hphase]; rfl
    split at hstep
    · rename_i message
      cases hstep
      have hearly : state.returned = false := by
        rw [← Bool.not_eq_true]
        intro hreturned
        cases hattentive hreturned lane hphase
      have hconcluded := hfailed.trans (unnoted_conclude _ (Control.idleFailure lane message))
      rw [note_early (hconcluded.returned.trans hearly)]
      exact hconcluded.plain hsteady hopened hholds rfl
    · split_ifs at hstep
      · cases hstep
        exact (hwatched.trans (unnoted_moved watched .tested _ _ _)).plain hsteady hopened
          hholds rfl
      · cases hstep
        exact (hwatched.trans (unnoted_moved watched _ _ _ _)).batch hsteady hopened hholds rfl
          (List.nodup_singleton _) fun _ => le_rfl
  · rename_i lane hphase
    have hopened : state.phase.opened = true := by rw [hphase]; rfl
    have hholds : state.phase.holds = false := by rw [hphase]; rfl
    split at hstep
    · cases hstep
      exact (hfailed.trans (unnoted_conclude _ _)).plain hsteady hopened hholds rfl
    · cases hstep
      exact (hwatched.trans (unnoted_moved watched (.varying lane true) _ _ _)).plain hsteady
        hopened hholds rfl
  · rename_i lane hphase
    have hopened : state.phase.opened = true := by rw [hphase]; rfl
    have hholds : state.phase.holds = false := by rw [hphase]; rfl
    split at hstep
    · cases hstep
      exact (hfailed.trans (unnoted_conclude _ _)).plain hsteady hopened hholds rfl
    · cases hstep
      obtain ⟨hunnoted, htested⟩ := unnoted_afterRest watched lane
      exact (hwatched.trans hunnoted).plain hsteady hopened hholds (by rw [htested]; rfl)
  · rename_i hphase
    have hopened : state.phase.opened = true := by rw [hphase]; rfl
    have hholds : state.phase.holds = false := by rw [hphase]; rfl
    cases hstep
    exact (hfailed.trans (unnoted_moved _ _ _ _ _)).plain hsteady hopened hholds (plain_next _)
  · cases hstep

theorem follows_vary (hsteady : Steady state) {segment : Option ℚ}
    (hstep : state.vary segment = some next) : Follows state next := by
  unfold Control.vary at hstep
  split at hstep
  · rename_i lane loadOn hphase
    have hopened : state.phase.opened = true := by rw [hphase]; rfl
    have hholds : state.phase.holds = false := by rw [hphase]; rfl
    have hmoved (phase : RunPhase) : Unnoted state { state with phase } :=
      unnoted_moved state phase state.rest state.cyclesLeft state.results
    split at hstep
    · cases hstep
      exact (hmoved (.resting lane)).plain hsteady hopened hholds rfl
    · split_ifs at hstep
      · cases hstep
        exact (hmoved (.resting lane)).plain hsteady hopened hholds rfl
      · cases hstep
        exact (hmoved _).batch hsteady hopened hholds rfl (List.nodup_singleton _)
          fun _ => le_rfl
      · cases hstep
        exact (hmoved (.pausing lane)).plain hsteady hopened hholds rfl
  · cases hstep

theorem follows_size (hsteady : Steady state) {fault : Option String}
    (hattentive : Attentive state (.size fault)) (hstep : state.size fault = some next) :
    Follows state next := by
  unfold Control.size at hstep
  split at hstep
  · rename_i hphase
    have hopened : state.phase.opened = true := by rw [hphase]; rfl
    have hholds : state.phase.holds = false := by rw [hphase]; rfl
    split at hstep
    · cases hstep
      have hearly : state.returned = false := by
        rw [← Bool.not_eq_true]
        intro hreturned
        cases hattentive hreturned
      rw [notes_early (by exact hearly)]
      exact (unnoted_moved state .ended _ _ _).plain hsteady hopened hholds rfl
    · cases hstep
      exact (unnoted_moved state _ _ _ _).batch hsteady hopened hholds rfl
        state.plan.lanes_distinct fun hsettings => absurd hsettings (by decide)
  · cases hstep

/-! ## The stages of a batch -/

/-- A batch on the stop event of its run, which knows of every stop that the batch knows of. -/
theorem placed_onEvent {batch : Batch} (hplaced : batch.Placed) {stopEvent : Bool}
    (hknown : batch.sup.stop = true → stopEvent = true) :
    (Control.onEvent stopEvent batch).Placed := by
  have hmoves : Moves (fun _ => True) batch.sup (Control.onEvent stopEvent batch).sup :=
    ⟨(Moves.refl _ batch.sup).change, rfl, hknown⟩
  refine ⟨hplaced.distinct, hplaced.alone, hplaced.driven, hplaced.standing.keep hmoves rfl ?_⟩
  cases hstop : stopEvent with
  | true => exact .inl rfl
  | false =>
      have hsame : batch.sup.stop = false := by
        rw [← Bool.not_eq_true]
        intro hbatch
        rw [hknown hbatch] at hstop
        cases hstop
      right
      show { batch.sup with stop := false } = batch.sup
      rw [← hsame]

/-- What only reaches launched lanes launches none and judges no other. -/
theorem changed_eq_nil {batch next : Batch} {stopEvent : Bool}
    (hmoves : Moves (fun run => run.launched = true) (Control.onEvent stopEvent batch).sup next.sup) :
    Control.changed Control.launches batch next = [] ∧
      Control.changed Control.judges batch next = [] := by
  obtain ⟨change, hruns, hchange⟩ := hmoves.change
  have hruns' : next.sup.runs = batch.sup.runs.map change := hruns
  have hnone (differs : LaneRun → LaneRun → Bool)
      (hsame : ∀ run ∈ batch.sup.runs, differs run (change run) = false) :
      Control.changed differs batch next = [] := by
    rw [Control.changed, hruns', ← List.map_prod_left_eq_zip, List.filterMap_eq_nil_iff]
    intro lanes hlanes
    obtain ⟨run, hrun, rfl⟩ := List.mem_map.mp hlanes
    rw [if_neg (by rw [hsame run hrun]; decide)]
  constructor
  · apply hnone
    intro run hrun
    obtain ⟨-, -, hreached⟩ := hchange run hrun
    rcases hreached with hlaunched | ⟨hsame, -⟩
    · simp [Control.launches, hlaunched]
    · simp [Control.launches, hsame]
  · apply hnone
    intro run hrun
    obtain ⟨-, hstays, hreached⟩ := hchange run hrun
    rcases hreached with hlaunched | ⟨-, hverdict⟩
    · simp [Control.judges, hstays hlaunched]
    · simp [Control.judges, hverdict]

theorem steady_supervise (hsteady : Steady state) {event : SupervisionEvent}
    (hattentive : Attentive state (.supervise event))
    (hstep : state.supervise classes event = some next) : Steady next := by
  unfold Control.supervise at hstep
  split at hstep
  · rename_i work batch hphase
    obtain ⟨after, hafter, rfl⟩ := Option.map_eq_some_iff.mp hstep
    obtain ⟨hplaced, hknown⟩ := hsteady.placed work batch hphase
    have hon := placed_onEvent hplaced hknown
    have hopened : state.phase.opened = true := by rw [hphase]; rfl
    have hstays : state.stopEvent = true → after.sup.stop = true :=
      (Batch.moves_step hon (fun _ _ => trivial) (Batch.reaches_any hon.distinct event)
        hafter).stops
    have hspared (hreturned : state.returned = true) :
        Moves (fun run => run.launched = true) (Control.onEvent state.stopEvent batch).sup
          after.sup :=
      Batch.moves_stopped hon (hsteady.heard hopened (hsteady.requested hreturned))
        (hattentive hreturned work batch hphase) hafter
    refine ⟨hsteady.requested, hsteady.asked, fun _ hrequested => hstays (hsteady.heard hopened hrequested),
      fun other current hcurrent => ?_, fun hlock => ?_, fun hholds => ?_, ?_, ?_⟩
    · injection hcurrent with hwork hbatch
      rw [← hbatch]
      exact ⟨Batch.placed_step hon hafter, id⟩
    · have hholds := hsteady.held hlock
      rw [hphase] at hholds
      cases hholds
    · cases hholds
    · show state.lateLaunches ++ _ = []
      rw [hsteady.noLaunch, List.nil_append]
      split
      · rename_i hreturned
        exact (changed_eq_nil (hspared hreturned)).1
      · rfl
    · show state.lateVerdicts ++ _ = []
      rw [hsteady.noVerdict, List.nil_append]
      split
      · rename_i hreturned
        exact (changed_eq_nil (hspared hreturned)).2
      · rfl
  · cases hstep

/-! ## The lifecycle -/

/-- A step of a call of `stop` that has set the event: it only moves the lock. -/
theorem Steady.call (hsteady : Steady state) (hrequested : state.requested = true)
    {lifecycle : TestState} {lock : Option Holder} (calls : Nat) (returned : Bool)
    (hlock : lock ≠ some .run) :
    Steady { state with lifecycle, lock, calls, returned } where
  requested _ := hrequested
  asked hnot := absurd (hrequested.symm.trans hnot) (by decide)
  heard := hsteady.heard
  placed := hsteady.placed
  held hheld := absurd hheld hlock
  scheduler := hsteady.scheduler
  noLaunch := hsteady.noLaunch
  noVerdict := hsteady.noVerdict

/-- Somebody has set the event when a call waits for the lock, or holds it. -/
theorem Steady.requested_of_calls (hsteady : Steady state)
    (hasked : state.calls ≠ 0 ∨ ∃ changed, state.lock = some (.stop changed)) :
    state.requested = true := by
  by_contra hnot
  obtain ⟨hcalls, hlock⟩ := hsteady.asked (Bool.eq_false_iff.mpr hnot)
  rcases hasked with hsome | ⟨changed, hheld⟩
  · exact hsome hcalls
  · exact hlock changed hheld

theorem steady_stopTakesLock (hsteady : Steady state)
    (hstep : state.stopTakesLock = some next) : Steady next := by
  unfold Control.stopTakesLock at hstep
  split_ifs at hstep
  split at hstep
  · cases hstep
  · rename_i calls hcalls
    cases hstep
    exact hsteady.call (hsteady.requested_of_calls (.inl (by omega))) calls state.returned
      (by decide)

theorem steady_changeState (hsteady : Steady state) (hstep : state.changeState = some next) :
    Steady next := by
  unfold Control.changeState at hstep
  split at hstep
  · rename_i hlock
    cases hstep
    exact hsteady.call (hsteady.requested_of_calls (.inr ⟨false, hlock⟩)) state.calls
      state.returned (by decide)
  · cases hstep

theorem steady_stopReturns (hsteady : Steady state) (hstep : state.stopReturns = some next) :
    Steady next := by
  unfold Control.stopReturns at hstep
  split at hstep
  · split_ifs at hstep with hlock
    cases hstep
    exact hsteady.call (hsteady.requested_of_calls (.inr ⟨true, hlock⟩)) state.calls true
      (by decide)
  · split at hstep
    · cases hstep
    · rename_i calls hcalls
      cases hstep
      have hrequested := hsteady.requested_of_calls (.inl (by omega))
      exact ⟨fun _ => hrequested, fun hnot => absurd (hrequested.symm.trans hnot) (by decide),
        hsteady.heard, hsteady.placed, hsteady.held, hsteady.scheduler, hsteady.noLaunch,
        hsteady.noVerdict⟩

theorem follows_takeLock (hstep : state.takeLock = some next) : Follows state next := by
  unfold Control.takeLock at hstep
  split_ifs at hstep with hfree
  split at hstep
  · cases hstep
    exact ⟨rfl, rfl, fun changed hheld => Holder.noConfusion (Option.some.inj hheld), rfl, rfl,
      rfl, id, fun hopened => Bool.noConfusion hopened,
      fun _ _ hphase => RunPhase.noConfusion hphase, fun _ => rfl, fun _ => hfree.1⟩
  · cases hstep

theorem follows_readState (hsteady : Steady state) (hstep : state.readState = some next) :
    Follows state next := by
  unfold Control.readState at hstep
  split at hstep
  · rename_i hphase
    have hscheduler : state.kind = .coreScheduler := hsteady.scheduler (by rw [hphase]; rfl)
    have hended : Follows state { state with lock := none, phase := .ended } :=
      ⟨rfl, rfl, fun _ hheld => (by cases hheld), rfl, rfl, rfl, id,
        fun hopened => Bool.noConfusion hopened, fun _ _ hnext => RunPhase.noConfusion hnext,
        fun hheld => (by cases hheld), fun hholds => Bool.noConfusion hholds⟩
    have hmarked : Follows state { state with lifecycle := .running, phase := .marked } :=
      ⟨rfl, rfl, fun _ => id, rfl, rfl, rfl, id, fun hopened => Bool.noConfusion hopened,
        fun _ _ hnext => RunPhase.noConfusion hnext, fun _ => rfl, fun _ => hscheduler⟩
    split at hstep <;> cases hstep <;> assumption
  · cases hstep

theorem follows_releaseLock (hstep : state.releaseLock = some next) : Follows state next := by
  unfold Control.releaseLock at hstep
  split at hstep
  · rename_i hphase
    cases hstep
    exact ⟨rfl, rfl, fun _ hheld => (by cases hheld), rfl, rfl, rfl, id,
      fun _ => by rw [hphase]; rfl, fun _ _ hnext => RunPhase.noConfusion hnext,
      fun hheld => (by cases hheld), fun hholds => Bool.noConfusion hholds⟩
  · cases hstep

theorem steady_clear (hsteady : Steady state) (hunasked : state.requested = false)
    (hstep : state.clear = some next) : Steady next := by
  have hheard {stopEvent : Bool} (hrequested : state.requested = true) : stopEvent = true := by
    rw [hunasked] at hrequested
    cases hrequested
  unfold Control.clear at hstep
  split at hstep
  · rename_i hkind hphase
    cases hstep
    exact ⟨hsteady.requested, hsteady.asked, fun _ => hheard,
      fun _ _ hnext => RunPhase.noConfusion hnext, fun _ => rfl, fun _ => hkind,
      hsteady.noLaunch, hsteady.noVerdict⟩
  · rename_i hkind hphase
    cases hstep
    refine ⟨hsteady.requested, hsteady.asked, fun _ => hheard,
      fun _ _ hnext => RunPhase.noConfusion hnext, fun hheld => ?_,
      fun hholds => Bool.noConfusion hholds, hsteady.noLaunch, hsteady.noVerdict⟩
    have hholds := hsteady.held hheld
    rw [hphase] at hholds
    cases hholds
  · cases hstep

/-! ## Every step -/

/-- **Every step of a run that clears no stop away keeps it steady.** -/
theorem steady_step {event : StopEvent} (hsteady : Steady state)
    (hattentive : Attentive state event) (hstep : state.step classes event = some next) :
    Steady next := by
  cases event with
  | setStop =>
      cases hstep
      exact ⟨fun _ => rfl, fun hrequested => Bool.noConfusion hrequested, fun _ _ => rfl,
        fun work batch hphase => ⟨(hsteady.placed work batch hphase).1, fun _ => rfl⟩,
        hsteady.held, hsteady.scheduler, hsteady.noLaunch, hsteady.noVerdict⟩
  | stopTakesLock => exact steady_stopTakesLock hsteady hstep
  | changeState => exact steady_changeState hsteady hstep
  | stopReturns => exact steady_stopReturns hsteady hstep
  | takeLock => exact hsteady.follow (follows_takeLock hstep)
  | readState => exact hsteady.follow (follows_readState hsteady hstep)
  | clear => exact steady_clear hsteady hattentive hstep
  | releaseLock => exact hsteady.follow (follows_releaseLock hstep)
  | proceed => exact hsteady.follow (follows_proceed hsteady hattentive hstep)
  | size fault => exact hsteady.follow (follows_size hsteady hattentive hstep)
  | idle error tripped => exact hsteady.follow (follows_idle hsteady hattentive hstep)
  | vary segment => exact hsteady.follow (follows_vary hsteady hstep)
  | supervise event => exact steady_supervise hsteady hattentive hstep

/-! ## The end of a run -/

/-- A step of the run itself, and not of a call of `stop` or beside the batch. -/
def StopEvent.ofRun : StopEvent → Bool
  | .setStop | .stopTakesLock | .changeState | .stopReturns => false
  | .supervise event => event.ofRun
  | _ => true

/-- How many steps a run has left at most once a stop was heard. -/
def Control.remaining (state : Control) : Nat :=
  match state.phase with
  | .ended => 0
  | .finishing => 1
  | .tested => 2
  | .idling => 2
  | .nextCore complete => if complete then 4 else 2
  | .nextCycle => 3
  | .settling _ => 3
  | .restingIdle _ => 3
  | .resting _ => 4
  | .varying _ _ => 5
  | .pausing _ => 6
  | .supervising _ batch => batch.phase.remaining batch.cores.length + 6
  | .sizing => 3 * state.plan.lanes.length + 15
  | .preparing => 3 * state.plan.lanes.length + 16
  | .cleared => 5
  | .marked => 6
  | .locked => 7
  | .called => 3 * state.plan.lanes.length + 17

theorem remaining_note (state : Control) (core : Nat) :
    (state.note core).remaining = state.remaining := by
  unfold Control.note
  split <;> rfl

theorem remaining_notes (state : Control) (cores : List Nat) :
    (state.notes cores).remaining = state.remaining := by
  induction cores generalizing state with
  | nil => rfl
  | cons core rest ih =>
      rw [Control.notes, List.foldl_cons]
      exact (ih _).trans (remaining_note state core)

theorem remaining_fresh {origin : Control} {work : Work} {phase : String}
    {stopOnFirstFailure : Bool} {lanes : List Lane} {duration : ℚ}
    (hphase : state.phase =
      .supervising work (origin.freshBatch phase stopOnFirstFailure lanes duration)) :
    state.remaining = 3 * lanes.length + 14 := by
  have hcores : (origin.freshBatch phase stopOnFirstFailure lanes duration).cores.length =
      lanes.length := by
    rw [Batch.length_cores]
    exact List.length_map _
  rw [Control.remaining, hphase]
  show Phase.remaining _ .starting + 6 = _
  rw [hcores]
  rfl

theorem remaining_afterRest (state : Control) (lane : Lane) :
    (state.afterRest lane).remaining = 2 := by
  rw [Control.remaining, (unnoted_afterRest state lane).2]

/-- With the stop event set, the end of a batch is not followed by another one. -/
theorem remaining_collect (hstop : state.stopEvent = true) (work : Work) (batch : Batch) :
    (state.collect work batch).remaining ≤ 5 := by
  cases work with
  | all => exact Nat.zero_le _
  | solo lane =>
      unfold Control.collect
      dsimp only
      split
      · exact Nat.le_of_ble_eq_true rfl
      · rw [hstop]
        split_ifs <;> simp_all [Control.remaining, Control.conclude]
  | segment lane =>
      unfold Control.collect
      dsimp only
      split
      · exact Nat.le_of_ble_eq_true rfl
      · split_ifs <;> exact Nat.le_of_ble_eq_true rfl

theorem remaining_prepare (state : Control) :
    state.prepare.remaining ≤ 3 * state.plan.lanes.length + 15 := by
  unfold Control.prepare
  split
  · rw [remaining_note]
    exact Nat.zero_le _
  · split
    · exact Nat.zero_le _
    · exact le_rfl

theorem remaining_proceed (hstop : state.phase.opened = true → state.stopEvent = true)
    (hstep : state.proceed = some next) : next.remaining < state.remaining := by
  unfold Control.proceed at hstep
  split at hstep
  · rename_i hphase
    cases hstep
    have hbefore : state.remaining = 3 * state.plan.lanes.length + 16 := by
      rw [Control.remaining, hphase]
    have hleft := remaining_prepare state
    omega
  · rename_i hphase
    have hset := hstop (by rw [hphase]; rfl)
    split at hstep <;> cases hstep <;> simp [Control.remaining, hphase, hset]
  · rename_i complete hphase
    have hset := hstop (by rw [hphase]; rfl)
    split at hstep
    · cases hstep
      cases complete <;> simp [Control.remaining, hphase]
    · rw [if_pos hset] at hstep
      cases hstep
      cases complete <;> simp [Control.remaining, hphase]
  · rename_i work batch hphase
    have hset := hstop (by rw [hphase]; rfl)
    split_ifs at hstep
    cases hstep
    have hleft := remaining_collect hset work batch
    have hbefore : state.remaining = batch.phase.remaining batch.cores.length + 6 := by
      rw [Control.remaining, hphase]
    omega
  · rename_i lane hphase
    have hset := hstop (by rw [hphase]; rfl)
    rw [hset] at hstep
    have hbefore : state.remaining = 4 := by rw [Control.remaining, hphase]
    simp only [Bool.not_true, Bool.and_false] at hstep
    cases hstep
    rw [remaining_afterRest, hbefore]
    decide
  · rename_i hphase
    have hset := hstop (by rw [hphase]; rfl)
    rw [if_pos hset] at hstep
    cases hstep
    simp [Control.remaining, hphase]
  · rename_i hphase
    split_ifs at hstep
    cases hstep
    simp [Control.remaining, hphase]
  · cases hstep

theorem remaining_idle {error : Option String} {tripped : Bool}
    (hstop : state.phase.opened = true → state.stopEvent = true)
    (hstep : state.idle error tripped = some next) : next.remaining < state.remaining := by
  unfold Control.idle at hstep
  dsimp only at hstep
  split at hstep
  · rename_i lane hphase
    have hset := hstop (by rw [hphase]; rfl)
    have hbefore : state.remaining = 3 := by rw [Control.remaining, hphase]
    split at hstep
    · cases hstep
      rw [remaining_note, hbefore]
      exact Nat.le_of_ble_eq_true rfl
    · rw [hset, Bool.true_or, if_pos rfl] at hstep
      cases hstep
      rw [hbefore]
      exact Nat.le_of_ble_eq_true rfl
  · rename_i lane hphase
    have hbefore : state.remaining = 6 := by rw [Control.remaining, hphase]
    rw [hbefore]
    split at hstep <;> cases hstep <;> exact Nat.le_of_ble_eq_true rfl
  · rename_i lane hphase
    have hbefore : state.remaining = 3 := by rw [Control.remaining, hphase]
    rw [hbefore]
    split at hstep <;> cases hstep
    · exact Nat.le_of_ble_eq_true rfl
    · rw [remaining_afterRest]
      exact Nat.le_of_ble_eq_true rfl
  · rename_i hphase
    have hset := hstop (by rw [hphase]; rfl)
    have hbefore : state.remaining = 2 := by rw [Control.remaining, hphase]
    cases hstep
    rw [hbefore]
    cases error with
    | none => simp [Control.remaining, hset]
    | some message => simp [Control.remaining, Control.afterFailure, hset]
  · cases hstep

theorem remaining_vary {segment : Option ℚ}
    (hstop : state.phase.opened = true → state.stopEvent = true)
    (hstep : state.vary segment = some next) : next.remaining < state.remaining := by
  unfold Control.vary at hstep
  split at hstep
  · rename_i lane loadOn hphase
    have hset := hstop (by rw [hphase]; rfl)
    have hbefore : state.remaining = 5 := by rw [Control.remaining, hphase]
    rw [hbefore]
    split at hstep
    · cases hstep
      exact Nat.le_of_ble_eq_true rfl
    · rw [if_pos hset] at hstep
      cases hstep
      exact Nat.le_of_ble_eq_true rfl
  · cases hstep

theorem remaining_size {fault : Option String} (hstep : state.size fault = some next) :
    next.remaining < state.remaining := by
  unfold Control.size at hstep
  split at hstep
  · rename_i hphase
    have hbefore : state.remaining = 3 * state.plan.lanes.length + 15 := by
      rw [Control.remaining, hphase]
    rw [hbefore]
    split at hstep <;> cases hstep
    · rw [remaining_notes]
      exact Nat.succ_pos _
    · rw [remaining_fresh rfl]
      omega
  · cases hstep

theorem cores_of_step {batch after : Batch} (hplaced : batch.Placed) {stopEvent : Bool}
    (hknown : batch.sup.stop = true → stopEvent = true) {event : SupervisionEvent}
    (hstep : (Control.onEvent stopEvent batch).step classes event = some after) :
    after.cores = batch.cores := by
  have hon := placed_onEvent hplaced hknown
  have hmoves : Moves (fun _ => True) (Control.onEvent stopEvent batch).sup after.sup :=
    Batch.moves_step hon (fun _ _ => trivial) (Batch.reaches_any hon.distinct event) hstep
  have hcores : after.cores = (Control.onEvent stopEvent batch).cores :=
    Batch.cores_of_moves hmoves
  exact hcores

theorem remaining_supervise {event : SupervisionEvent} (hofRun : event.ofRun = true)
    (hplaced : ∀ work batch, state.phase = .supervising work batch →
      batch.Placed ∧ (batch.sup.stop = true → state.stopEvent = true))
    (hstop : state.phase.opened = true → state.stopEvent = true)
    (hstep : state.supervise classes event = some next) : next.remaining < state.remaining := by
  unfold Control.supervise at hstep
  split at hstep
  · rename_i work batch hphase
    obtain ⟨after, hafter, rfl⟩ := Option.map_eq_some_iff.mp hstep
    have hset := hstop (by rw [hphase]; rfl)
    obtain ⟨hbatch, hknown⟩ := hplaced work batch hphase
    have hcores : after.cores = batch.cores := cores_of_step hbatch hknown hafter
    have hless : after.phase.remaining (Control.onEvent state.stopEvent batch).cores.length <
        (Control.onEvent state.stopEvent batch).phase.remaining
          (Control.onEvent state.stopEvent batch).cores.length :=
      Batch.remaining_step hofRun hset hafter
    change after.phase.remaining batch.cores.length < batch.phase.remaining batch.cores.length
      at hless
    have hbefore : state.remaining = batch.phase.remaining batch.cores.length + 6 := by
      rw [Control.remaining, hphase]
    show after.phase.remaining after.cores.length + 6 < state.remaining
    rw [hcores, hbefore]
    omega
  · cases hstep

/-- **A run that has heard a stop ends**: each of its steps brings the end nearer. -/
theorem remaining_lt {event : StopEvent} (hsteady : Steady state)
    (hstop : state.phase.opened = true → state.stopEvent = true) (hofRun : event.ofRun = true)
    (hstep : state.step classes event = some next) : next.remaining < state.remaining := by
  -- The events beside the run are excluded, so each one left takes the run a stage further.
  cases event with
  | setStop => cases hofRun
  | stopTakesLock => cases hofRun
  | changeState => cases hofRun
  | stopReturns => cases hofRun
  | takeLock =>
      simp only [Control.step, Control.takeLock] at hstep
      split_ifs at hstep
      split at hstep
      · rename_i hphase
        cases hstep
        rw [Control.remaining, Control.remaining, hphase]
        dsimp only
        omega
      · cases hstep
  | readState =>
      simp only [Control.step, Control.readState] at hstep
      split at hstep
      · rename_i hphase
        have hbefore : state.remaining = 7 := by rw [Control.remaining, hphase]
        rw [hbefore]
        split at hstep <;> cases hstep <;> exact Nat.le_of_ble_eq_true rfl
      · cases hstep
  | clear =>
      simp only [Control.step, Control.clear] at hstep
      split at hstep
      · rename_i hphase
        cases hstep
        rw [Control.remaining, Control.remaining, hphase]
        exact Nat.le_of_ble_eq_true rfl
      · rename_i hphase
        cases hstep
        rw [Control.remaining, Control.remaining, hphase]
        dsimp only
        omega
      · cases hstep
  | releaseLock =>
      simp only [Control.step, Control.releaseLock] at hstep
      split at hstep
      · rename_i hphase
        have hbefore : state.remaining = 5 := by rw [Control.remaining, hphase]
        cases hstep
        rw [hbefore]
        exact Nat.le_of_ble_eq_true rfl
      · cases hstep
  | proceed => exact remaining_proceed hstop hstep
  | size fault => exact remaining_size hstep
  | idle error tripped => exact remaining_idle hstop hstep
  | vary segment => exact remaining_vary hstop hstep
  | supervise event => exact remaining_supervise hofRun hsteady.placed hstop hstep

/-- What happens beside a run does not set it back. -/
theorem remaining_beside {event : StopEvent} (hsteady : Steady state)
    (hbeside : event.ofRun = false) (hstep : state.step classes event = some next) :
    next.remaining = state.remaining := by
  cases event with
  | setStop =>
      cases hstep
      rfl
  | stopTakesLock =>
      simp only [Control.step, Control.stopTakesLock] at hstep
      split_ifs at hstep
      split at hstep <;> cases hstep
      rfl
  | changeState =>
      simp only [Control.step, Control.changeState] at hstep
      split at hstep <;> cases hstep
      rfl
  | stopReturns =>
      simp only [Control.step, Control.stopReturns] at hstep
      split at hstep
      · split_ifs at hstep
        cases hstep
        rfl
      · split at hstep <;> cases hstep
        rfl
  | supervise event =>
      simp only [Control.step, Control.supervise] at hstep
      split at hstep
      · rename_i work batch hphase
        obtain ⟨after, hafter, rfl⟩ := Option.map_eq_some_iff.mp hstep
        obtain ⟨hbatch, hknown⟩ := hsteady.placed work batch hphase
        have hkept : after.phase = (Control.onEvent state.stopEvent batch).phase :=
          Batch.phase_beside hbeside hafter
        rw [Control.remaining, Control.remaining, hphase]
        dsimp only
        rw [cores_of_step hbatch hknown hafter, hkept]
        rfl
      · cases hstep
  | _ => cases hbeside

/-- A stop that has returned stays so. -/
theorem returned_step {event : StopEvent} (hsteady : Steady state)
    (hattentive : Attentive state event) (hreturned : state.returned = true)
    (hstep : state.step classes event = some next) : next.returned = true := by
  have hfollow (hfollows : Follows state next) : next.returned = true :=
    hfollows.returned.trans hreturned
  cases event with
  | setStop =>
      cases hstep
      exact hreturned
  | stopTakesLock =>
      simp only [Control.step, Control.stopTakesLock] at hstep
      split_ifs at hstep
      split at hstep <;> cases hstep
      exact hreturned
  | changeState =>
      simp only [Control.step, Control.changeState] at hstep
      split at hstep <;> cases hstep
      exact hreturned
  | stopReturns =>
      simp only [Control.step, Control.stopReturns] at hstep
      split at hstep
      · split_ifs at hstep
        cases hstep
        rfl
      · split at hstep <;> cases hstep
        rfl
  | takeLock => exact hfollow (follows_takeLock hstep)
  | readState => exact hfollow (follows_readState hsteady hstep)
  | clear =>
      simp only [Control.step, Control.clear] at hstep
      split at hstep <;> cases hstep <;> exact hreturned
  | releaseLock => exact hfollow (follows_releaseLock hstep)
  | proceed => exact hfollow (follows_proceed hsteady hattentive hstep)
  | size fault => exact hfollow (follows_size hsteady hattentive hstep)
  | idle error tripped => exact hfollow (follows_idle hsteady hattentive hstep)
  | vary segment => exact hfollow (follows_vary hsteady hstep)
  | supervise event =>
      simp only [Control.step, Control.supervise] at hstep
      split at hstep
      · obtain ⟨after, -, rfl⟩ := Option.map_eq_some_iff.mp hstep
        exact hreturned
      · cases hstep

/-- Once a stop has returned, the steps that the run still takes are numbered. -/
theorem steps_le_remaining {events : List StopEvent} {final : Control} (hsteady : Steady state)
    (hreturned : state.returned = true)
    (hallowed : StepSystem.AllowedRun (stopping classes) Attentive state events)
    (hrun : (stopping classes).runEvents state events = some final) :
    events.countP StopEvent.ofRun ≤ state.remaining := by
  induction events generalizing state with
  | nil => exact Nat.zero_le _
  | cons event rest ih =>
      rw [StepSystem.runEvents_cons, Option.bind_eq_some_iff] at hrun
      obtain ⟨next, hnext, hrest⟩ := hrun
      have hafter := ih (steady_step hsteady hallowed.1 hnext)
        (returned_step hsteady hallowed.1 hreturned hnext) (hallowed.2 next hnext) hrest
      have hstop : state.phase.opened = true → state.stopEvent = true := fun hopened =>
        hsteady.heard hopened (hsteady.requested hreturned)
      cases hofRun : event.ofRun with
      | true =>
          have hless := remaining_lt hsteady hstop hofRun hnext
          rw [List.countP_cons_of_pos hofRun]
          omega
      | false =>
          have hsame := remaining_beside hsteady hofRun hnext
          rw [List.countP_cons_of_neg (by rw [hofRun]; decide)]
          omega

/-- A run that has not ended goes on, unless a call of `stop` holds the lock it needs. -/
theorem exists_step (classes : CharClasses) (hsteady : Steady state)
    (hended : state.phase ≠ .ended) :
    (∃ changed, state.lock = some (.stop changed)) ∨
      ∃ event : StopEvent, event.ofRun = true ∧ (state.step classes event).isSome = true := by
  have hstep (event : StopEvent) (hofRun : event.ofRun = true)
      (hsome : (state.step classes event).isSome = true) :
      (∃ changed, state.lock = some (.stop changed)) ∨
        ∃ event : StopEvent, event.ofRun = true ∧ (state.step classes event).isSome = true :=
    .inr ⟨event, hofRun, hsome⟩
  -- what the run itself holds, it needs for these stages only
  have hlock (hholds : state.phase.holds = false) :
      state.lock = none ∨ ∃ changed, state.lock = some (.stop changed) := by
    cases hheld : state.lock with
    | none => exact .inl rfl
    | some holder =>
        cases holder with
        | run =>
            rw [hsteady.held hheld] at hholds
            cases hholds
        | stop changed => exact .inr ⟨changed, rfl⟩
  have hproceed (hnext : state.proceed.isSome = true) := hstep .proceed rfl hnext
  have hidle (hnext : (state.idle none false).isSome = true) :=
    hstep (.idle none false) rfl hnext
  -- In each phase the event that the run itself does there is named.
  cases hphase : state.phase with
  | ended => exact absurd hphase hended
  | called =>
      cases hkind : state.kind with
      | parallelStress => exact hstep .clear rfl (by
          simp only [Control.step, Control.clear, hkind, hphase]
          rfl)
      | coreScheduler =>
          rcases hlock (by rw [hphase]; rfl) with hfree | hheld
          · exact hstep .takeLock rfl (by
              rw [Control.step, Control.takeLock, if_pos ⟨hkind, hfree⟩, hphase]
              rfl)
          · exact .inl hheld
  | finishing =>
      rcases hlock (by rw [hphase]; rfl) with hfree | hheld
      · exact hproceed (by
          rw [Control.proceed, hphase]
          dsimp only
          rw [if_pos hfree]
          rfl)
      · exact .inl hheld
  | locked =>
      exact hstep .readState rfl (by
        simp only [Control.step, Control.readState, hphase]
        split <;> rfl)
  | marked =>
      have hkind := hsteady.scheduler (by rw [hphase]; rfl)
      exact hstep .clear rfl (by
        simp only [Control.step, Control.clear, hkind, hphase]
        rfl)
  | cleared =>
      exact hstep .releaseLock rfl (by
        simp only [Control.step, Control.releaseLock, hphase]
        rfl)
  | preparing => exact hproceed (by rw [Control.proceed, hphase]; rfl)
  | sizing =>
      exact hstep (.size none) rfl (by
        simp only [Control.step, Control.size, hphase]
        rfl)
  | nextCycle =>
      exact hproceed (by
        rw [Control.proceed, hphase]
        dsimp only
        split <;> rfl)
  | nextCore complete =>
      exact hproceed (by
        rw [Control.proceed, hphase]
        dsimp only
        split
        · rfl
        · split <;> rfl)
  | settling lane =>
      exact hidle (by
        simp only [Control.idle, hphase]
        split <;> rfl)
  | supervising work batch =>
      by_cases hdone : batch.phase = .done
      · exact hproceed (by
          rw [Control.proceed, hphase]
          dsimp only
          rw [if_pos hdone]
          rfl)
      · have hgoes : (Control.onEvent state.stopEvent batch).phase ≠ .done := hdone
        obtain ⟨event, hofRun, -, hsome⟩ := Batch.exists_step classes hgoes
        exact hstep (.supervise event) hofRun (by
          simp only [Control.step, Control.supervise, hphase]
          rwa [Option.isSome_map])
  | varying lane loadOn =>
      exact hstep (.vary none) rfl (by
        simp only [Control.step, Control.vary, hphase]
        rfl)
  | pausing lane => exact hidle (by simp only [Control.idle, hphase]; rfl)
  | resting lane =>
      exact hproceed (by
        rw [Control.proceed, hphase]
        dsimp only
        split <;> rfl)
  | restingIdle lane => exact hidle (by simp only [Control.idle, hphase]; rfl)
  | tested =>
      exact hproceed (by
        rw [Control.proceed, hphase]
        dsimp only
        split_ifs <;> rfl)
  | idling => exact hidle (by simp only [Control.idle, hphase]; rfl)

theorem steady_start (hstart : (stopping classes).Start state) : Steady state := by
  have hfresh : state =
      { kind := state.kind, plan := state.plan, lifecycle := state.lifecycle,
        stopEvent := state.stopEvent } := hstart
  rw [hfresh]
  exact ⟨fun hreturned => Bool.noConfusion hreturned, fun _ => ⟨rfl, fun _ => by simp⟩,
    fun hopened => Bool.noConfusion hopened, fun _ _ hphase => RunPhase.noConfusion hphase,
    fun hheld => (by cases hheld), fun hholds => Bool.noConfusion hholds, rfl, rfl⟩

/-- A stop was heeded: nothing was launched since it has returned, no lane that was not
launched has got a verdict, and the run goes on to an end that is not far. -/
structure Heeded (classes : CharClasses) (state : Control) : Prop where
  noLaunch : state.lateLaunches = []
  noVerdict : state.lateVerdicts = []
  goesOn : state.phase ≠ .ended → (∃ changed, state.lock = some (.stop changed)) ∨
    ∃ event : StopEvent, event.ofRun = true ∧ (state.step classes event).isSome = true
  ends : ∀ events final, StepSystem.AllowedRun (stopping classes) Attentive state events →
    (stopping classes).runEvents state events = some final →
      events.countP StopEvent.ofRun ≤ state.remaining

/-- **No stop is lost**, where none is cleared away and nothing but the stop keeps a lane from
its launch. -/
theorem heeded_of_reachable (classes : CharClasses)
    (hreach : StepSystem.ReachableBy (stopping classes) Attentive state)
    (hreturned : state.returned = true) : Heeded classes state := by
  have hsteady : Steady state := hreach.invariant (fun _ => steady_start)
    fun _ _ _ hbefore hattentive hstep => steady_step hbefore hattentive hstep
  exact ⟨hsteady.noLaunch, hsteady.noVerdict, exists_step classes hsteady,
    fun _ _ hallowed hrun => steps_le_remaining hsteady hreturned hallowed hrun⟩

def limit95 : Degrees where
  text := "95.0"
  ne_empty := by decide
  numeric := by
    have hall : ((Text.lower "95.0").all fun digit =>
        decide (digit ∈ "-.0123456789".toList)) = true := by decide
    simpa only [List.all_eq_true, decide_eq_true_eq] using hall

/-- Two cores of one CPU each. -/
def twoLanes : Plan where
  slot := { maxTemperature := limit95 }
  backend := .mprime
  secondsPerCore := 360
  cores := [0, 1]
  laneOf core := some { coreId := core, mceCpus := [core] }
  distinct := by decide
  own core lane hlane := by
    cases hlane
    rfl

/-- A worker that was just started. -/
def started (kind : Kind) : Control where
  kind := kind
  plan := twoLanes
  lifecycle := .idle
  stopEvent := false

/-- A stop that comes between two launches of a parallel stress is heeded. -/
theorem heeded_between_launches : ∃ state : Control,
    state.returned = true ∧ state.phase.opened = true ∧ Heeded .ascii state := by
  have hstart : StepSystem.ReachableBy (stopping .ascii) Attentive (started .parallelStress) :=
    .start rfl
  have hcleared := hstart.step (show Attentive _ .clear from rfl) rfl
  have hprepared := hcleared.step (show Attentive _ .proceed from fun h => by cases h) rfl
  have hsized := hprepared.step (show Attentive _ (.size none) from fun h => by cases h) rfl
  have hsafe := hsized.step
    (show Attentive _ (.supervise (.checkThermal .safe)) from fun h => by cases h) rfl
  have hlaunched := hsafe.step
    (show Attentive _ (.supervise (.launch (.started false false))) from fun h => by cases h) rfl
  have hset := hlaunched.step (show Attentive _ .setStop from trivial) rfl
  have hreturned := hset.step (show Attentive _ .stopReturns from trivial) rfl
  have hrefused := hreturned.step
    (show Attentive _ (.supervise (.launch (.started false false))) from fun _ _ _ _ => rfl) rfl
  exact ⟨_, rfl, rfl, heeded_of_reachable .ascii hrefused rfl⟩

/-- Both runs clear away a stop that has set the event before, and launch a lane after it has
returned.  A parallel stress that a stop was in time for still fails lanes it did not launch,
where there is not enough memory for them. -/
theorem stops_lost :
    (∃ state, StepSystem.Reachable (stopping .ascii) state ∧
      (state.kind, state.returned, state.lateLaunches) = (.coreScheduler, true, [0])) ∧
    (∃ state, StepSystem.Reachable (stopping .ascii) state ∧
      (state.kind, state.returned, state.lateLaunches) = (.parallelStress, true, [0])) ∧
    (∃ state, StepSystem.Reachable (stopping .ascii) state ∧
      (state.kind, state.stopEvent, state.returned, state.lateVerdicts) =
        (.parallelStress, true, true, [0, 1])) := by
  refine ⟨?_, ?_, ?_⟩
  · exact StepSystem.exists_reachable _ _
      [.setStop, .takeLock, .readState, .clear, .releaseLock, .stopTakesLock, .changeState,
        .stopReturns, .proceed, .proceed, .supervise (.checkThermal .safe),
        .supervise (.launch (.started false false))]
      (show (stopping .ascii).Start (started .coreScheduler) from rfl) (by decide +kernel)
  · exact StepSystem.exists_reachable _ _
      [.setStop, .stopReturns, .clear, .proceed, .size none, .supervise (.checkThermal .safe),
        .supervise (.launch (.started false false))]
      (show (stopping .ascii).Start (started .parallelStress) from rfl) (by decide +kernel)
  · exact StepSystem.exists_reachable _ _
      [.clear, .proceed, .setStop, .stopReturns, .size (some "not enough memory")]
      (show (stopping .ascii).Start (started .parallelStress) from rfl) (by decide +kernel)

end StopProtocol
end Engine
end CoreCycler
