import CoreCycler.Library.StepSystem

/-!
# Checked writes, and a cache of what they left

A cell is written by attempts.  Each may be rejected, may raise, or may read a value
back, and the write is verified once the value read back is the one written.  A cache
keeps the value of the last verified write, and a program that writes cells may skip a
cell whose cached value is already the one it wants.

`Truthful` says that the cache tells what the last attempt left.  It is kept by every
write that is verified, and by every write to a cell of which the cache knows nothing;
any other write breaks it, for a failed write does not take the cached value back.
-/

namespace CoreCycler
namespace Library
namespace CheckedWrites

/-! ## Attempts -/

/-- How an attempt to write a cell ends. -/
inductive Answer (Value : Type*)
  | rejected
  | raised
  | readBack (value : Value)
deriving DecidableEq

/-- An attempt, and what it leaves in the cell.  A value read back is the one that is there. -/
structure Attempt (Value : Type*) where
  answer : Answer Value
  leaves : Value
  honest : ∀ value, answer = .readBack value → leaves = value

/-- The cells, the cache, and for each cell the value that the most recent attempt was
verified at. -/
structure Cells (Cell Value : Type*) where
  contents : Cell → Value
  cached : Cell → Option Value
  verified : Cell → Option Value

variable {Cell Value Result Call : Type*} [DecidableEq Cell] [DecidableEq Value]

/-- What an attempt leaves behind. -/
def Cells.note (cells : Cells Cell Value) (cell : Cell) (value : Value)
    (attempt : Attempt Value) : Cells Cell Value :=
  { cells with
    contents := Function.update cells.contents cell attempt.leaves
    verified := Function.update cells.verified cell
      (if attempt.answer = .readBack value then some value else none) }

/-- Attempt a write until it is verified, or no attempt is left. -/
def attemptWrite (cells : Cells Cell Value) (cell : Cell) (value : Value) :
    List (Attempt Value) → Bool × Cells Cell Value
  | [] => (false, cells)
  | attempt :: rest =>
      let noted := cells.note cell value attempt
      if attempt.answer = .readBack value then
        (true, { noted with cached := Function.update noted.cached cell (some value) })
      else
        attemptWrite noted cell value rest

/-- The cache tells what the most recent attempt was verified at, and what is there. -/
def Truthful (cells : Cells Cell Value) : Prop :=
  ∀ cell value, cells.cached cell = some value →
    cells.verified cell = some value ∧ cells.contents cell = value

section Writes

variable {cells : Cells Cell Value} {cell other : Cell} {value : Value}
  {attempts : List (Attempt Value)}

@[simp] theorem note_cached (attempt : Attempt Value) :
    (cells.note cell value attempt).cached = cells.cached := rfl

theorem note_verified_failed {attempt : Attempt Value}
    (hfail : attempt.answer ≠ .readBack value) :
    (cells.note cell value attempt).verified cell = none := by
  show Function.update cells.verified cell _ cell = none
  rw [Function.update_self, if_neg hfail]

/-- **Frame.**  Only the cell written to changes. -/
theorem attemptWrite_of_ne (hother : other ≠ cell) :
    (attemptWrite cells cell value attempts).2.contents other = cells.contents other ∧
      (attemptWrite cells cell value attempts).2.cached other = cells.cached other ∧
      (attemptWrite cells cell value attempts).2.verified other = cells.verified other := by
  induction attempts generalizing cells with
  | nil => exact ⟨rfl, rfl, rfl⟩
  | cons attempt rest ih =>
      simp only [attemptWrite]
      split
      · simp [Cells.note, hother]
      · obtain ⟨hcontents, hcached, hverified⟩ := ih
        rw [hcontents, hcached, hverified]
        simp [Cells.note, hother]

/-- A write reports success exactly when an attempt reads the value back. -/
theorem attemptWrite_fst :
    (attemptWrite cells cell value attempts).1 = true ↔
      ∃ attempt ∈ attempts, attempt.answer = .readBack value := by
  induction attempts generalizing cells with
  | nil => simp [attemptWrite]
  | cons attempt rest ih =>
      simp only [attemptWrite, List.exists_mem_cons_iff]
      split
      · next hread => exact ⟨fun _ => Or.inl hread, fun _ => rfl⟩
      · next hread => rw [ih, or_iff_right hread]

/-- What a verified write leaves in its cell. -/
theorem attemptWrite_verified (hok : (attemptWrite cells cell value attempts).1 = true) :
    (attemptWrite cells cell value attempts).2.contents cell = value ∧
      (attemptWrite cells cell value attempts).2.cached cell = some value ∧
      (attemptWrite cells cell value attempts).2.verified cell = some value := by
  induction attempts generalizing cells with
  | nil => exact absurd hok (by simp [attemptWrite])
  | cons attempt rest ih =>
      simp only [attemptWrite] at hok ⊢
      split
      · next hread =>
          have hleft := attempt.honest value hread
          simp [Cells.note, hread, hleft]
      · next hread =>
          rw [if_neg hread] at hok
          exact ih hok

/-- A failed write leaves the cache as it was. -/
theorem attemptWrite_failed_cached (hfail : (attemptWrite cells cell value attempts).1 = false) :
    (attemptWrite cells cell value attempts).2.cached = cells.cached := by
  induction attempts generalizing cells with
  | nil => rfl
  | cons attempt rest ih =>
      simp only [attemptWrite] at hfail ⊢
      split
      · next hread => simp [hread] at hfail
      · next hread =>
          rw [if_neg hread] at hfail
          rw [ih hfail, note_cached]

/-- After a failed write the most recent attempt was not verified. -/
theorem attemptWrite_failed_verified (hne : attempts ≠ [])
    (hfail : (attemptWrite cells cell value attempts).1 = false) :
    (attemptWrite cells cell value attempts).2.verified cell = none := by
  induction attempts generalizing cells with
  | nil => exact absurd rfl hne
  | cons attempt rest ih =>
      simp only [attemptWrite] at hfail ⊢
      split
      · next hread => simp [hread] at hfail
      · next hread =>
          rw [if_neg hread] at hfail
          cases rest with
          | nil => exact note_verified_failed hread
          | cons second more => exact ih (List.cons_ne_nil _ _) hfail

/-- A write keeps the cache truthful if it is verified, or the cache knew nothing of
its cell. -/
theorem Truthful.attemptWrite (htrue : Truthful cells)
    (hgood : (attemptWrite cells cell value attempts).1 = true ∨ cells.cached cell = none) :
    Truthful (attemptWrite cells cell value attempts).2 := by
  intro other held hheld
  by_cases hother : other = cell
  · subst hother
    cases hok : (CheckedWrites.attemptWrite cells other value attempts).1 with
    | true =>
        obtain ⟨hcontents, hcached, hverified⟩ := attemptWrite_verified hok
        obtain rfl : value = held := Option.some.inj (hcached.symm.trans hheld)
        exact ⟨hverified, hcontents⟩
    | false =>
        have hunknown := hgood.resolve_left (by simp [hok])
        rw [attemptWrite_failed_cached hok, hunknown] at hheld
        exact absurd hheld (by simp)
  · obtain ⟨hcontents, hcached, hverified⟩ :=
      @attemptWrite_of_ne _ _ _ _ cells cell other value attempts hother
    rw [hcached] at hheld
    rw [hverified, hcontents]
    exact htrue other held hheld

/-- A failed write to a cell the cache knows makes the cache lie. -/
theorem not_truthful_of_failed (hne : attempts ≠ [])
    (hfail : (attemptWrite cells cell value attempts).1 = false)
    (hknown : cells.cached cell ≠ none) :
    ¬ Truthful (attemptWrite cells cell value attempts).2 := by
  intro htrue
  obtain ⟨held, hheld⟩ := Option.ne_none_iff_exists'.mp hknown
  rw [← attemptWrite_failed_cached hfail] at hheld
  have hverified := (htrue cell held hheld).1
  rw [attemptWrite_failed_verified hne hfail] at hverified
  exact absurd hverified (by simp)

end Writes

/-! ## Programs that write -/

/-- A program that writes cells.  A cell that need not `always` be written is skipped when
its cached value is the wanted one; `next` is told whether the cell was skipped or
verified. -/
inductive Program (Cell Value Result : Type*)
  | done (result : Result)
  | put (cell : Cell) (value : Value) (always : Bool)
      (next : Bool → Program Cell Value Result)

namespace Program

/-- Go on with the result of a program. -/
def bind {Next : Type*} (program : Program Cell Value Result)
    (rest : Result → Program Cell Value Next) : Program Cell Value Next :=
  match program with
  | .done result => rest result
  | .put cell value always next => .put cell value always fun ok => (next ok).bind rest

instance : Monad (Program Cell Value) where
  pure := .done
  bind := bind

end Program

/-- What programs are run, which values are taken at all, and how often a write is
attempted. -/
structure Driver (Cell Value Result Call : Type*) where
  program : Call → Program Cell Value Result
  inRange : Value → Bool
  attempts : Nat

/-- The cells, with the program that is writing them. -/
structure Machine (Cell Value Result : Type*) where
  cells : Cells Cell Value
  pending : Option (Program Cell Value Result) := none

/-- What happens to the cells. -/
inductive Event (Cell Value Call : Type*) (attempts : Nat)
  /-- A program is run. -/
  | call (call : Call)
  /-- The program skips a cell, for its cached value. -/
  | skip
  /-- The program writes a cell, or is refused a value out of range. -/
  | write (answers : Fin attempts → Attempt Value)
  /-- The program is over. -/
  | finish
  /-- Cached values are dropped. -/
  | forget (which : Cell → Bool)
  /-- The machine restarts: the cells hold anything and the cache is empty. -/
  | restart (contents : Cell → Value)

/-- Write a cell of the machine, unless the value is out of range. -/
def Driver.write (driver : Driver Cell Value Result Call) (cells : Cells Cell Value)
    (cell : Cell) (value : Value) (answers : Fin driver.attempts → Attempt Value) :
    Bool × Cells Cell Value :=
  if driver.inRange value then attemptWrite cells cell value (List.ofFn answers)
  else (false, cells)

/-- The machine after an event. -/
def Driver.step (driver : Driver Cell Value Result Call) (machine : Machine Cell Value Result) :
    Event Cell Value Call driver.attempts → Option (Machine Cell Value Result)
  | .call call =>
      match machine.pending with
      | none => some { machine with pending := some (driver.program call) }
      | some _ => none
  | .skip =>
      match machine.pending with
      | some (.put cell value false next) =>
          -- Only a value that the cache has already is skipped.
          if machine.cells.cached cell = some value then
            some { machine with pending := some (next true) }
          else
            none
      | _ => none
  | .write answers =>
      match machine.pending with
      | some (.put cell value always next) =>
          if always = false ∧ machine.cells.cached cell = some value then
            none
          else
            let written := driver.write machine.cells cell value answers
            some { cells := written.2, pending := some (next written.1) }
      | _ => none
  | .finish =>
      match machine.pending with
      | some (.done _) => some { machine with pending := none }
      | _ => none
  | .forget which =>
      match machine.pending with
      | none =>
          some { machine with
            cells := { machine.cells with
              cached := fun cell => if which cell then none else machine.cells.cached cell } }
      | some _ => none
  -- A restart forgets all that was read, while the cells may hold anything.
  | .restart contents =>
      some { cells := { contents, cached := fun _ => none, verified := fun _ => none } }

/-- The machine starts idle, with an empty cache. -/
def Driver.system (driver : Driver Cell Value Result Call) :
    StepSystem (Machine Cell Value Result) (Event Cell Value Call driver.attempts) where
  Start machine := machine.pending = none ∧ machine.cells.cached = fun _ => none
  step := driver.step

/-- The step is no failed write to a cell whose value the cache knows: one of the answers
reads the value back, or the cache knows nothing, or the value is out of range and no
attempt is made. -/
def Driver.Answered (driver : Driver Cell Value Result Call)
    (machine : Machine Cell Value Result) :
    Event Cell Value Call driver.attempts → Prop
  | .write answers =>
      match machine.pending with
      | some (.put cell value _ _) =>
          driver.inRange value = true → machine.cells.cached cell ≠ none →
            ∃ attempt, (answers attempt).answer = .readBack value
      | _ => True
  | _ => True

section Runs

variable {driver : Driver Cell Value Result Call} {machine next : Machine Cell Value Result}
  {event : Event Cell Value Call driver.attempts}

/-- Inversion of a write step. -/
theorem step_write {answers : Fin driver.attempts → Attempt Value}
    (hstep : driver.step machine (.write answers) = some next) :
    ∃ cell value always rest, machine.pending = some (.put cell value always rest) ∧
      next.cells = (driver.write machine.cells cell value answers).2 := by
  unfold Driver.step at hstep
  cases hpending : machine.pending with
  | none => simp [hpending] at hstep
  | some program =>
      cases program with
      | done result => simp [hpending] at hstep
      | put cell value always rest =>
          simp only [hpending] at hstep
          split at hstep
          · exact absurd hstep (by simp)
          · exact ⟨cell, value, always, rest, rfl, by rw [← Option.some.inj hstep]⟩

/-- A step that writes no cell leaves the cells alone, or empties the cache. -/
theorem step_cells (hstep : driver.step machine event = some next)
    (hwrite : ∀ answers, event ≠ .write answers) :
    ∀ cell, next.cells.cached cell = none ∨
      (next.cells.cached cell = machine.cells.cached cell ∧
        next.cells.contents cell = machine.cells.contents cell ∧
        next.cells.verified cell = machine.cells.verified cell) := by
  intro cell
  -- Apart from a write, cells are only forgotten, or lost in a restart.
  cases event with
  | write answers => exact absurd rfl (hwrite answers)
  | restart contents =>
      obtain rfl := Option.some.inj hstep
      exact Or.inl rfl
  | call call =>
      unfold Driver.step at hstep
      cases hpending : machine.pending with
      | some program => simp [hpending] at hstep
      | none =>
          simp only [hpending, Option.some.injEq] at hstep
          exact Or.inr (by rw [← hstep]; exact ⟨rfl, rfl, rfl⟩)
  | forget which =>
      unfold Driver.step at hstep
      cases hpending : machine.pending with
      | some program => simp [hpending] at hstep
      | none =>
          simp only [hpending, Option.some.injEq] at hstep
          rw [← hstep]
          by_cases hwhich : which cell = true
          · exact Or.inl (if_pos hwhich)
          · exact Or.inr ⟨if_neg hwhich, rfl, rfl⟩
  | finish =>
      simp only [Driver.step] at hstep
      split at hstep
      · exact Or.inr (by rw [← Option.some.inj hstep]; exact ⟨rfl, rfl, rfl⟩)
      · exact absurd hstep (by simp)
  | skip =>
      simp only [Driver.step] at hstep
      split at hstep
      · split at hstep
        · exact Or.inr (by rw [← Option.some.inj hstep]; exact ⟨rfl, rfl, rfl⟩)
        · exact absurd hstep (by simp)
      · exact absurd hstep (by simp)

/-- **Step lemma.**  An answered step keeps the cache truthful. -/
theorem Truthful.step (htrue : Truthful machine.cells) (hanswered : driver.Answered machine event)
    (hstep : driver.step machine event = some next) : Truthful next.cells := by
  by_cases hwrite : ∃ answers, event = .write answers
  · obtain ⟨answers, rfl⟩ := hwrite
    obtain ⟨cell, value, always, rest, hpending, hcells⟩ := step_write hstep
    rw [hcells, Driver.write]
    split
    · next hrange =>
        apply htrue.attemptWrite
        by_cases hknown : machine.cells.cached cell = none
        · exact Or.inr hknown
        · left
          simp only [Driver.Answered, hpending] at hanswered
          obtain ⟨attempt, hread⟩ := hanswered hrange hknown
          exact attemptWrite_fst.mpr ⟨answers attempt, by simp, hread⟩
    · exact htrue
  · intro cell value hcached
    rcases step_cells hstep (fun answers heq => hwrite ⟨answers, heq⟩) cell with
      hnone | ⟨hsame, hcontents, hverified⟩
    · exact absurd (hnone.symm.trans hcached) (by simp)
    · rw [hcontents, hverified]
      exact htrue cell value (hsame ▸ hcached)

/-- **Run lemma.**  The cache is truthful as long as every step is answered. -/
theorem truthful_of_reachable (hreach : driver.system.ReachableBy driver.Answered machine) :
    Truthful machine.cells := by
  refine @StepSystem.ReachableBy.invariant _ _ _ _ (fun machine => Truthful machine.cells)
    ?_ ?_ _ hreach
  · intro start hstart cell value hcached
    rw [hstart.2] at hcached
    exact absurd hcached (by simp)
  · intro state event next htrue hanswered hstep
    exact htrue.step hanswered hstep

/-- A step that is not answered makes the cache lie. -/
theorem not_truthful_of_unanswered (hpos : 0 < driver.attempts)
    (hanswered : ¬ driver.Answered machine event)
    (hstep : driver.step machine event = some next) : ¬ Truthful next.cells := by
  cases event with
  | write answers =>
      obtain ⟨cell, value, always, rest, hpending, hcells⟩ := step_write hstep
      simp only [Driver.Answered, hpending, Classical.not_imp] at hanswered
      obtain ⟨hrange, hknown, hnone⟩ := hanswered
      rw [hcells, Driver.write, if_pos hrange]
      have hne : List.ofFn answers ≠ [] := by
        intro hnil
        have hlen := congrArg List.length hnil
        simp only [List.length_ofFn, List.length_nil] at hlen
        omega
      refine not_truthful_of_failed hne ?_ hknown
      rw [Bool.eq_false_iff]
      intro hok
      obtain ⟨attempt, hmem, hread⟩ := attemptWrite_fst.mp hok
      obtain ⟨index, rfl⟩ := List.mem_ofFn.mp hmem
      exact hnone ⟨index, hread⟩
  | call call => exact absurd trivial hanswered
  | skip => exact absurd trivial hanswered
  | finish => exact absurd trivial hanswered
  | forget which => exact absurd trivial hanswered
  | restart contents => exact absurd trivial hanswered

end Runs

end CheckedWrites
end Library
end CoreCycler
