import Mathlib.Tactic

/-!
# Event-driven step systems

A step system has start states and a partial step function: an event that is
not enabled in a state yields `none`.  Everything the environment decides
(an answer, a verdict, a reboot) is carried by the event.

Runs are restricted by a predicate on the step about to be taken.  An
unrestricted run uses `anyStep`; a result that needs a condition at every step
quantifies over the runs all of whose steps meet it.
-/

namespace CoreCycler
namespace Library

/-- Start states together with a partial, event-labelled step function. -/
structure StepSystem (State Event : Type*) where
  Start : State → Prop
  step : State → Event → Option State

namespace StepSystem

variable {State Event : Type*} {system : StepSystem State Event}

/-- The restriction that rules no step out. -/
def anyStep : State → Event → Prop := fun _ _ => True

/-- The states reached by runs all of whose steps are allowed. -/
inductive ReachableBy (system : StepSystem State Event)
    (allowed : State → Event → Prop) : State → Prop
  | start {state : State} (hstart : system.Start state) :
      ReachableBy system allowed state
  | step {state next : State} {event : Event}
      (hreach : ReachableBy system allowed state)
      (hallowed : allowed state event)
      (hstep : system.step state event = some next) :
      ReachableBy system allowed next

/-- Reachable by a run without restriction. -/
abbrev Reachable (system : StepSystem State Event) : State → Prop :=
  ReachableBy system anyStep

/-- **The invariant rule.**  What holds at the start and is kept by every
allowed step holds in every state an allowed run reaches. -/
theorem ReachableBy.invariant {allowed : State → Event → Prop}
    {Inv : State → Prop}
    (hstart : ∀ state, system.Start state → Inv state)
    (hstep : ∀ state event next, Inv state → allowed state event →
      system.step state event = some next → Inv next)
    {state : State} (hreach : ReachableBy system allowed state) : Inv state := by
  induction hreach with
  | start hinit => exact hstart _ hinit
  | step _ hallowed hnext ih => exact hstep _ _ _ ih hallowed hnext

/-- The state after a list of events, or `none` at the first one not enabled. -/
def runEvents (system : StepSystem State Event) : State → List Event → Option State
  | state, [] => some state
  | state, event :: rest => (system.step state event).bind fun next =>
      runEvents system next rest

@[simp] theorem runEvents_nil (state : State) :
    system.runEvents state [] = some state := rfl

@[simp] theorem runEvents_cons (state : State) (event : Event) (rest : List Event) :
    system.runEvents state (event :: rest) =
      (system.step state event).bind fun next => system.runEvents next rest := rfl

theorem runEvents_append (state : State) (first second : List Event) :
    system.runEvents state (first ++ second) =
      (system.runEvents state first).bind fun next => system.runEvents next second := by
  induction first generalizing state with
  | nil => rfl
  | cons event rest ih =>
      rw [List.cons_append, runEvents_cons, runEvents_cons, Option.bind_assoc]
      exact Option.bind_congr fun next _ => ih next

/-- Running allowed events out of a reachable state stays reachable. -/
theorem ReachableBy.runEvents {allowed : State → Event → Prop} {state final : State}
    {events : List Event} (hreach : ReachableBy system allowed state)
    (hallowed : ∀ event ∈ events, ∀ state, allowed state event)
    (hrun : system.runEvents state events = some final) :
    ReachableBy system allowed final := by
  induction events generalizing state with
  | nil =>
      obtain rfl : state = final := by simpa using hrun
      exact hreach
  | cons event rest ih =>
      rw [runEvents_cons, Option.bind_eq_some_iff] at hrun
      obtain ⟨next, hnext, hrest⟩ := hrun
      rw [List.forall_mem_cons] at hallowed
      exact ih (.step hreach (hallowed.1 state) hnext) hallowed.2 hrest

/-- Every event of a list is allowed in the state it is taken in. -/
def AllowedRun (system : StepSystem State Event) (allowed : State → Event → Prop) :
    State → List Event → Prop
  | _, [] => True
  | state, event :: rest => allowed state event ∧
      ∀ next, system.step state event = some next → AllowedRun system allowed next rest

/-- Running events that are allowed where they are taken stays reachable. -/
theorem ReachableBy.allowedRun {allowed : State → Event → Prop} {state final : State}
    {events : List Event} (hreach : ReachableBy system allowed state)
    (hallowed : AllowedRun system allowed state events)
    (hrun : system.runEvents state events = some final) : ReachableBy system allowed final := by
  induction events generalizing state with
  | nil =>
      obtain rfl : state = final := by simpa using hrun
      exact hreach
  | cons event rest ih =>
      rw [runEvents_cons, Option.bind_eq_some_iff] at hrun
      obtain ⟨next, hnext, hrest⟩ := hrun
      exact ih (.step hreach hallowed.1 hnext) (hallowed.2 next hnext) hrest

/-- The state after a list of events, each of which is allowed where it is taken. -/
def runAllowed (system : StepSystem State Event) (allowed : State → Event → Prop)
    [∀ state event, Decidable (allowed state event)] : State → List Event → Option State
  | state, [] => some state
  | state, event :: rest =>
      if allowed state event then
        (system.step state event).bind fun next => runAllowed system allowed next rest
      else none

theorem ReachableBy.runAllowed {allowed : State → Event → Prop}
    [∀ state event, Decidable (allowed state event)] {state final : State} {events : List Event}
    (hreach : ReachableBy system allowed state)
    (hrun : system.runAllowed allowed state events = some final) :
    ReachableBy system allowed final := by
  induction events generalizing state with
  | nil =>
      obtain rfl : state = final := Option.some.inj hrun
      exact hreach
  | cons event rest ih =>
      rw [StepSystem.runAllowed] at hrun
      split at hrun
      · rename_i hallowed
        obtain ⟨next, hnext, hrest⟩ := Option.bind_eq_some_iff.mp hrun
        exact ih (.step hreach hallowed hnext) hrest
      · cases hrun

/-- What a run that is allowed where it is taken leads to, seen through `view`, is reachable. -/
theorem exists_reachableBy_runAllowed (allowed : State → Event → Prop)
    [∀ state event, Decidable (allowed state event)] {View : Type*} (view : State → View)
    (value : View) {state : State} (events : List Event) (hstart : system.Start state)
    (hrun : (system.runAllowed allowed state events).map view = some value) :
    ∃ final, ReachableBy system allowed final ∧ view final = value := by
  obtain ⟨final, hfinal, hview⟩ := Option.map_eq_some_iff.mp hrun
  exact ⟨final, ReachableBy.runAllowed (.start hstart) hfinal, hview⟩

/-- What a list of allowed events leads to, seen through `view`, is reachable. -/
theorem exists_reachableBy (allowed : State → Event → Prop) {View : Type*}
    (view : State → View) (value : View) {state : State} (events : List Event)
    (hstart : system.Start state) (hallowed : ∀ event ∈ events, ∀ state, allowed state event)
    (hrun : (system.runEvents state events).map view = some value) :
    ∃ final, ReachableBy system allowed final ∧ view final = value := by
  obtain ⟨final, hfinal, hview⟩ := Option.map_eq_some_iff.mp hrun
  exact ⟨final, ReachableBy.runEvents (.start hstart) hallowed hfinal, hview⟩

/-- What a list of events leads to, seen through `view`, is reachable. -/
theorem exists_reachable {View : Type*} (view : State → View) (value : View)
    {state : State} (events : List Event) (hstart : system.Start state)
    (hrun : (system.runEvents state events).map view = some value) :
    ∃ final, Reachable system final ∧ view final = value :=
  exists_reachableBy anyStep view value events hstart (fun _ _ _ => trivial) hrun

/-! ## Independent copies -/

/-- Independent copies of a system, one for each index. -/
def indexed (system : StepSystem State Event) (Index : Type*) [DecidableEq Index] :
    StepSystem (Index → State) (Index × Event) where
  Start states := ∀ index, system.Start (states index)
  step states event := (system.step (states event.1) event.2).map
    (Function.update states event.1)

/-- The restriction that each copy's own steps are allowed. -/
def eachStep {Index : Type*} (allowed : State → Event → Prop) :
    (Index → State) → Index × Event → Prop :=
  fun states event => allowed (states event.1) event.2

instance {Index : Type*} (allowed : State → Event → Prop)
    [∀ state event, Decidable (allowed state event)] (states : Index → State)
    (event : Index × Event) : Decidable (eachStep allowed states event) :=
  inferInstanceAs (Decidable (allowed (states event.1) event.2))

/-- Every copy of an indexed run makes a run of its own. -/
theorem ReachableBy.component {Index : Type*} [DecidableEq Index]
    {allowed : State → Event → Prop} {states : Index → State}
    (hreach : ReachableBy (system.indexed Index) (eachStep allowed) states) (index : Index) :
    ReachableBy system allowed (states index) := by
  induction hreach with
  | start hinit => exact .start (hinit index)
  | @step states next event _ hallowed hnext ih =>
      obtain ⟨moved, hmoved, rfl⟩ := Option.map_eq_some_iff.mp hnext
      by_cases hindex : index = event.1
      · subst hindex
        rw [Function.update_self]
        exact .step ih hallowed hmoved
      · rw [Function.update_of_ne hindex]
        exact ih

end StepSystem
end Library
end CoreCycler
