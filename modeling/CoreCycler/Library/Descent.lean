import Mathlib.Data.Prod.Lex
import Mathlib.Tactic

/-!
# Runs that must stop

A machine answers to one input after the other.  `answered` is its state after the first
inputs of an endless sequence; a measure that every step lowers until the machine stops
bounds the run, whatever the inputs are.
-/

namespace CoreCycler
namespace Library
namespace Descent

variable {State Answer Measure : Type*} {step : State → Answer → State}

/-- The state after the first `count` answers. -/
def answered (step : State → Answer → State) (state : State) (answers : ℕ → Answer) :
    ℕ → State
  | 0 => state
  | count + 1 => step (answered step state answers count) (answers count)

@[simp] theorem answered_zero (state : State) (answers : ℕ → Answer) :
    answered step state answers 0 = state := rfl

theorem answered_succ (state : State) (answers : ℕ → Answer) (count : ℕ) :
    answered step state answers (count + 1) =
      step (answered step state answers count) (answers count) := rfl

/-- The first answer can be given before the others. -/
theorem answered_shift (state : State) (answers : ℕ → Answer) (count : ℕ) :
    answered step state answers (count + 1) =
      answered step (step state (answers 0)) (fun index => answers (index + 1)) count := by
  induction count with
  | zero => rfl
  | succ count ih =>
      rw [answered_succ, ih]
      rfl

/-- **The descent rule.**  A machine whose steps keep `Inv` and lower a well-founded measure
until it stops does stop. -/
theorem exists_stop [LT Measure] [WellFoundedLT Measure] {Inv : State → Prop}
    (Stops : State → Answer → Prop) (measure : State → Measure)
    (hkeep : ∀ state answer, Inv state → ¬ Stops state answer → Inv (step state answer))
    (hlower : ∀ state answer, Inv state → ¬ Stops state answer →
      measure (step state answer) < measure state)
    {state : State} (hinv : Inv state) (answers : ℕ → Answer) :
    ∃ count, Stops (answered step state answers count) (answers count) := by
  have hall : ∀ bound : Measure, ∀ state, measure state = bound → Inv state →
      ∀ answers : ℕ → Answer, ∃ count,
        Stops (answered step state answers count) (answers count) := by
    intro bound
    induction bound using WellFoundedLT.induction with
    | ind bound ih =>
        rintro state rfl hinv answers
        by_cases hstops : Stops state (answers 0)
        · exact ⟨0, hstops⟩
        · obtain ⟨count, hcount⟩ := ih _ (hlower state (answers 0) hinv hstops) _ rfl
            (hkeep state (answers 0) hinv hstops) fun index => answers (index + 1)
          exact ⟨count + 1, by rwa [answered_shift]⟩
  exact hall _ state rfl hinv answers

section

variable {First Second : Type*} {first first' : First} {second second' : Second}

/-- A pair of measures falls with its first one. -/
theorem lex_of_head [LT First] [LT Second] (hlt : first' < first) :
    toLex (first', second') < toLex (first, second) :=
  Prod.Lex.toLex_lt_toLex.mpr (.inl hlt)

/-- A pair of measures falls with its second one, where the first does not rise. -/
theorem lex_of_tail [PartialOrder First] [LT Second] (hle : first' ≤ first)
    (hlt : second' < second) : toLex (first', second') < toLex (first, second) :=
  Prod.Lex.toLex_lt_toLex.mpr (hle.lt_or_eq.imp id fun heq => ⟨heq, hlt⟩)

end

/-- A machine that asks nothing stops as well. -/
theorem exists_iterate [LT Measure] [WellFoundedLT Measure] {Inv : State → Prop}
    (Stops : State → Prop) (next : State → State) (measure : State → Measure)
    (hkeep : ∀ state, Inv state → ¬ Stops state → Inv (next state))
    (hlower : ∀ state, Inv state → ¬ Stops state → measure (next state) < measure state)
    {state : State} (hinv : Inv state) :
    ∃ count, Stops (next^[count] state) ∧ ∀ earlier ≤ count, Inv (next^[earlier] state) := by
  induction hbound : measure state using WellFoundedLT.induction generalizing state with
  | ind bound ih =>
      by_cases hstops : Stops state
      · refine ⟨0, hstops, fun earlier hle => ?_⟩
        rwa [Nat.le_zero.mp hle]
      · obtain ⟨count, hcount, hall⟩ := ih _ (hbound ▸ hlower state hinv hstops)
          (hkeep state hinv hstops) rfl
        refine ⟨count + 1, hcount, fun earlier hle => ?_⟩
        cases earlier with
        | zero => exact hinv
        | succ earlier => exact hall earlier (Nat.le_of_succ_le_succ hle)

end Descent
end Library
end CoreCycler
