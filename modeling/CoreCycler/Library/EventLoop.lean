import CoreCycler.Library.StepSystem

/-!
# Event loops with workers

A program reacts to queued tasks, to the results of its workers and to calls from outside.
Everything it queues is handled later, in any order, and a worker that was launched runs on
beside it.  The program keeps a reference to the worker launched last, which is all a guarded
call looks at.

A flow is what will wake the program up again: an unfinished worker, a result, or a task.
The rule of the module is `Single.step`: when every reaction leaves at most one flow behind,
and a call only starts one where none was left, there is never more than one.
-/

namespace CoreCycler
namespace Library
namespace EventLoop

variable {Memory Task Slot Result Call Choice : Type*}

/-- What a reaction leaves to be done. -/
inductive Next (Task Slot Result : Type*)
  | nothing
  | later (task : Task)
  | launch (slot : Slot)
  /-- A slot that could not be launched reports through the queue. -/
  | fail (result : Result)

/-- What the program does when it is woken up. -/
structure Reaction (Memory Task Slot Result : Type*) where
  memory : Memory
  /-- It writes what a running worker relies on. -/
  writes : Bool := false
  /-- It stops the worker the program refers to. -/
  stops : Bool := false
  next : Next Task Slot Result := .nothing

/-- The reactions of a program; what the environment decides is a `Choice`. -/
structure Program (Memory Task Slot Result Call Choice : Type*) where
  Start : Memory → Prop
  onTask : Memory → Task → Choice → Reaction Memory Task Slot Result
  onResult : Memory → Result → Choice → Reaction Memory Task Slot Result
  onCall : Memory → Call → Choice → Reaction Memory Task Slot Result
  /-- The call is turned away while the worker referred to is running. -/
  guarded : Call → Bool
  /-- What is left of the memory when the process ends. -/
  onExit : Memory → Choice → Memory

/-- What waits in the queue. -/
inductive Pending (Task Result : Type*)
  | task (task : Task)
  /-- The result of the slot with the given number. -/
  | result (serial : Nat) (result : Result)

structure Loop (Memory Task Slot Result : Type*) where
  memory : Memory
  /-- The workers that have not finished, with the numbers of their slots. -/
  workers : List (Nat × Slot) := []
  queue : List (Pending Task Result) := []
  /-- The worker the program refers to. -/
  held : Option Nat := none
  /-- How many slots were dispatched. -/
  dispatched : Nat := 0
  /-- History: a reaction wrote while a worker was running. -/
  overwritten : Bool := false
  /-- History: a result was taken for that of another slot. -/
  misapplied : Bool := false

inductive Event (Result Call Choice : Type*)
  /-- A worker finishes. -/
  | finish (serial : Nat) (result : Result)
  /-- The loop takes the entry at a position of the queue. -/
  | handle (position : Nat) (choice : Choice)
  | call (call : Call) (choice : Choice)
  /-- The process ends, and another one takes over. -/
  | exit (choice : Choice)

namespace Loop

/-- The worker referred to has not finished. -/
def heldRunning (loop : Loop Memory Task Slot Result) : Bool :=
  loop.workers.any fun worker => loop.held = some worker.1

def stopHeld (loop : Loop Memory Task Slot Result) : Loop Memory Task Slot Result :=
  { loop with
    workers := loop.workers.filter fun worker => loop.held ≠ some worker.1
    held := none }

/-- Queue or launch what a reaction leaves. -/
def follow (loop : Loop Memory Task Slot Result) :
    Next Task Slot Result → Loop Memory Task Slot Result
  | .nothing => loop
  | .later task => { loop with queue := loop.queue ++ [.task task] }
  | .launch slot =>
      { loop with
        workers := loop.workers ++ [(loop.dispatched, slot)]
        held := some loop.dispatched
        dispatched := loop.dispatched + 1 }
  | .fail result =>
      { loop with
        queue := loop.queue ++ [.result loop.dispatched result]
        dispatched := loop.dispatched + 1 }

/-- Carry out a reaction. -/
def proceed (loop : Loop Memory Task Slot Result)
    (reaction : Reaction Memory Task Slot Result) : Loop Memory Task Slot Result :=
  let ready := if reaction.stops then loop.stopHeld else loop
  { ready with
    memory := reaction.memory
    overwritten := ready.overwritten || (reaction.writes && !ready.workers.isEmpty) }.follow
      reaction.next

/-- How many flows there are. -/
def flows (loop : Loop Memory Task Slot Result) : Nat := loop.workers.length + loop.queue.length

/-- At most one flow, which is that of the slot dispatched last, and a history without
accidents. -/
structure Single (loop : Loop Memory Task Slot Result) : Prop where
  flows_le : loop.flows ≤ 1
  worker : ∀ worker ∈ loop.workers, worker.1 + 1 = loop.dispatched
  result : ∀ serial result, Pending.result serial result ∈ loop.queue →
    serial + 1 = loop.dispatched
  not_overwritten : loop.overwritten = false
  not_misapplied : loop.misapplied = false

end Loop

namespace Program

variable (program : Program Memory Task Slot Result Call Choice)

/-- Take an entry out of the queue and react to it. -/
def take (loop : Loop Memory Task Slot Result) (choice : Choice) :
    Pending Task Result → Loop Memory Task Slot Result
  | .task task => loop.proceed (program.onTask loop.memory task choice)
  | .result serial result =>
      -- Whichever worker reports, the reference is dropped.
      { loop with
        held := none
        misapplied := loop.misapplied || decide (serial + 1 ≠ loop.dispatched) }.proceed
          (program.onResult loop.memory result choice)

/-- The call is not looked at. -/
def turnsAway (loop : Loop Memory Task Slot Result) (call : Call) : Bool :=
  program.guarded call && loop.heldRunning

/-- The loop, with everything that may happen to it. -/
def system : StepSystem (Loop Memory Task Slot Result) (Event Result Call Choice) where
  Start loop := ∃ memory, program.Start memory ∧ loop = { memory }
  step loop
    | .finish serial result =>
        if loop.workers.any (·.1 = serial) then
          some
            { loop with
              workers := loop.workers.filter (·.1 ≠ serial)
              queue := loop.queue ++ [.result serial result] }
        else none
    | .handle position choice =>
        loop.queue[position]?.map
          (program.take { loop with queue := loop.queue.eraseIdx position } choice)
    | .call call choice =>
        if program.turnsAway loop call then some loop
        else some (loop.proceed (program.onCall loop.memory call choice))
    | .exit choice =>
        some
          { loop with
            memory := program.onExit loop.memory choice, workers := [], queue := [], held := none }

/-- A reaction that starts nothing and writes nothing. -/
def Inert (reaction : Reaction Memory Task Slot Result) : Prop :=
  reaction.next = .nothing ∧ reaction.writes = false

/-- A call is turned away, is inert, or finds no flow left. -/
def Calm (loop : Loop Memory Task Slot Result) : Event Result Call Choice → Prop
  | .call call choice =>
      program.turnsAway loop call = true ∨
        Inert (program.onCall loop.memory call choice) ∨ loop.flows = 0
  | _ => True

end Program

namespace Loop

variable {program : Program Memory Task Slot Result Call Choice}
  {loop : Loop Memory Task Slot Result}

theorem workers_nil_of_flows (hflows : loop.flows = 0) : loop.workers = [] :=
  List.length_eq_zero_iff.mp (by unfold flows at hflows; omega)

theorem queue_nil_of_flows (hflows : loop.flows = 0) : loop.queue = [] :=
  List.length_eq_zero_iff.mp (by unfold flows at hflows; omega)

/-- A reaction leaves at most one flow where there was none. -/
theorem single_proceed_of_none (hflows : loop.flows = 0) (hover : loop.overwritten = false)
    (hmis : loop.misapplied = false) (reaction : Reaction Memory Task Slot Result) :
    (loop.proceed reaction).Single := by
  have hworkers := workers_nil_of_flows hflows
  have hqueue := queue_nil_of_flows hflows
  have hready : ∀ ready : Loop Memory Task Slot Result, ready.workers = [] → ready.queue = [] →
      ready.overwritten = false → ready.misapplied = false →
      (ready.follow reaction.next).Single := by
    intro ready hworkers hqueue hover hmis
    cases hnext : reaction.next with
    | nothing => constructor <;> simp [follow, flows, hworkers, hqueue, hover, hmis]
    | later task => constructor <;> simp [follow, flows, hworkers, hqueue, hover, hmis]
    | launch slot => constructor <;> simp [follow, flows, hworkers, hqueue, hover, hmis]
    | fail result => constructor <;> simp [follow, flows, hworkers, hqueue, hover, hmis]
  unfold proceed
  cases reaction.stops with
  | true =>
      refine hready _ ?_ hqueue ?_ hmis
      · simp [stopHeld, hworkers]
      · simp [stopHeld, hworkers, hover]
  | false =>
      refine hready _ hworkers hqueue ?_ hmis
      simp [hworkers, hover]

/-- An inert reaction leaves no more flows than there were. -/
theorem Single.proceed_inert (hsingle : loop.Single)
    {reaction : Reaction Memory Task Slot Result} (hinert : Program.Inert reaction) :
    (loop.proceed reaction).Single := by
  obtain ⟨hnext, hwrites⟩ := hinert
  cases hstops : reaction.stops with
  | false =>
      constructor
      · simpa [proceed, hnext, hstops, follow, flows] using hsingle.flows_le
      · simpa [proceed, hnext, hstops, follow] using hsingle.worker
      · simpa [proceed, hnext, hstops, follow] using hsingle.result
      · simpa [proceed, hnext, hstops, hwrites, follow] using hsingle.not_overwritten
      · simpa [proceed, hnext, hstops, follow] using hsingle.not_misapplied
  | true =>
      constructor
      · have hle := List.length_filter_le (fun worker => loop.held ≠ some worker.1) loop.workers
        have hflows := hsingle.flows_le
        simp only [proceed, hnext, hstops, follow, stopHeld, flows, if_true] at hflows ⊢
        omega
      · intro worker hmem
        simp only [proceed, hnext, hstops, follow, stopHeld, if_true] at hmem ⊢
        exact hsingle.worker worker (List.mem_filter.mp hmem).1
      · simpa [proceed, hnext, hstops, follow, stopHeld] using hsingle.result
      · simpa [proceed, hnext, hstops, hwrites, follow, stopHeld] using hsingle.not_overwritten
      · simpa [proceed, hnext, hstops, follow, stopHeld] using hsingle.not_misapplied

/-- The entry taken out of the queue of a single flow was the flow. -/
theorem Single.flows_eraseIdx (hsingle : loop.Single) {position : Nat}
    {pending : Pending Task Result} (htaken : loop.queue[position]? = some pending) :
    ({ loop with queue := loop.queue.eraseIdx position } : Loop Memory Task Slot Result).flows =
      0 := by
  obtain ⟨hlt, -⟩ := List.getElem?_eq_some_iff.mp htaken
  have hflows := hsingle.flows_le
  have hlength := List.length_eraseIdx_add_one hlt
  simp only [flows] at hflows ⊢
  omega

/-- **One flow stays one flow.** -/
theorem Single.step (hsingle : loop.Single) {event : Event Result Call Choice}
    (hcalm : program.Calm loop event) {next : Loop Memory Task Slot Result}
    (hstep : program.system.step loop event = some next) : next.Single := by
  cases event with
  | finish serial result =>
      simp only [Program.system, Option.ite_none_right_eq_some, Option.some.injEq] at hstep
      obtain ⟨hany, rfl⟩ := hstep
      obtain ⟨worker, hmem, hserial⟩ := List.any_eq_true.mp hany
      have hserial : worker.1 = serial := of_decide_eq_true hserial
      -- One flow at most, and this worker is one: nothing else is under way.
      obtain ⟨hworkers, hqueue⟩ : loop.workers = [worker] ∧ loop.queue = [] := by
        have hflows := hsingle.flows_le
        have hpos := List.length_pos_of_mem hmem
        unfold flows at hflows
        obtain ⟨other, hother⟩ := List.length_eq_one_iff.mp (show loop.workers.length = 1 by omega)
        rw [hother, List.mem_singleton] at hmem
        exact ⟨by rw [hother, hmem], List.length_eq_zero_iff.mp (by omega)⟩
      have hlast := hsingle.worker worker hmem
      constructor
      · simp [flows, hworkers, hqueue, hserial]
      · simp [hworkers, hserial]
      · intro number answer hpending
        simp only [hqueue, List.nil_append, List.mem_singleton, Pending.result.injEq] at hpending
        rw [hpending.1, ← hserial, hlast]
      · exact hsingle.not_overwritten
      · exact hsingle.not_misapplied
  | handle position choice =>
      obtain ⟨pending, htaken, rfl⟩ := Option.map_eq_some_iff.mp hstep
      have hnone := hsingle.flows_eraseIdx htaken
      cases pending with
      | task task =>
          exact single_proceed_of_none hnone hsingle.not_overwritten hsingle.not_misapplied _
      | result serial result =>
          have hserial := hsingle.result serial result (List.mem_of_getElem? htaken)
          rw [Program.take]
          apply single_proceed_of_none
          · exact hnone
          · exact hsingle.not_overwritten
          · simp [hsingle.not_misapplied, hserial]
  | call call choice =>
      simp only [Program.system] at hstep
      split at hstep
      · exact Option.some.inj hstep ▸ hsingle
      · next haway =>
          obtain rfl := Option.some.inj hstep
          -- A call meets nothing under way, or leaves what is under way alone.
          rcases hcalm with haway' | hinert | hnone
          · exact absurd haway' haway
          · exact hsingle.proceed_inert hinert
          · exact single_proceed_of_none hnone hsingle.not_overwritten hsingle.not_misapplied _
  | exit choice =>
      obtain rfl := Option.some.inj hstep
      exact ⟨by simp [flows], by simp, by simp, hsingle.not_overwritten, hsingle.not_misapplied⟩

end Loop

end EventLoop
end Library
end CoreCycler
