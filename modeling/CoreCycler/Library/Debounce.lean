import Mathlib.Algebra.Order.Group.Defs
import Mathlib.Algebra.Order.Monoid.Defs
import Mathlib.Data.List.Induction
import Mathlib.Tactic.Common

/-!
# Debounced limits that latch

Samples of a quantity arrive one after another.  A sample over the limit starts a streak,
a sample under it ends the streak, and any other sample leaves it as it is.  A guard trips
at a sample beyond the ceiling, or at one over the limit whose streak has lasted through
the grace period, and stays tripped until a sample that is cool.

`Limit` says which sample is which, and `Guard` is what is remembered of the samples so
far.  What a guard does is stated about whole histories: which of them trip it, and which
of them keep it tripped.
-/

namespace CoreCycler
namespace Library
namespace Debounce

variable {Sample Time : Type*}

/-- Which samples start, end, trip and reset. -/
structure Limit (Sample Time : Type*) where
  time : Sample → Time
  above : Sample → Bool
  under : Sample → Bool
  ceiling : Sample → Bool
  cool : Sample → Bool
  grace : Time

/-- What a guard remembers: when the streak in progress began, and whether it tripped. -/
structure Guard (Time : Type*) where
  since : Option Time := none
  tripped : Bool := false

namespace Limit

/-- A cool sample is under the limit, a sample beyond the ceiling over it, and none is both. -/
structure Consistent (limit : Limit Sample Time) : Prop where
  under_of_cool : ∀ sample, limit.cool sample = true → limit.under sample = true
  over_of_ceiling : ∀ sample, limit.ceiling sample = true → limit.above sample = true
  not_both : ∀ sample, limit.under sample = true → limit.above sample = false

theorem Consistent.not_under_of_over {limit : Limit Sample Time} (hconsistent : limit.Consistent)
    {sample : Sample} (hover : limit.above sample = true) : limit.under sample = false := by
  cases hunder : limit.under sample with
  | false => rfl
  | true =>
      have hnot := hconsistent.not_both sample hunder
      rw [hover] at hnot
      exact absurd hnot (by simp)

theorem Consistent.not_cool_of_over {limit : Limit Sample Time} (hconsistent : limit.Consistent)
    {sample : Sample} (hover : limit.above sample = true) : limit.cool sample = false := by
  cases hcool : limit.cool sample with
  | false => rfl
  | true =>
      have hunder := hconsistent.under_of_cool sample hcool
      rw [hconsistent.not_under_of_over hover] at hunder
      exact absurd hunder (by simp)

/-- When the streak began, once a sample is seen. -/
def since (limit : Limit Sample Time) (start : Option Time) (sample : Sample) : Option Time :=
  if limit.under sample then none
  else if limit.above sample then some (start.getD (limit.time sample))
  else start

variable [Add Time] [LinearOrder Time]

/-- The streak has lasted through the grace period. -/
def overdue (limit : Limit Sample Time) (start : Option Time) (sample : Sample) : Bool :=
  limit.above sample && start.any fun began => decide (began + limit.grace ≤ limit.time sample)

/-- A guard sees one sample. -/
def step (limit : Limit Sample Time) (guard : Guard Time) (sample : Sample) : Guard Time where
  since := limit.since guard.since sample
  tripped := !limit.cool sample &&
    (guard.tripped || limit.ceiling sample ||
      limit.overdue (limit.since guard.since sample) sample)

/-- A guard that has seen a history. -/
def after (limit : Limit Sample Time) (history : List Sample) : Guard Time :=
  history.foldl limit.step {}

variable {limit : Limit Sample Time} {history : List Sample} {sample : Sample}

@[simp] theorem after_concat (history : List Sample) (sample : Sample) :
    limit.after (history ++ [sample]) = limit.step (limit.after history) sample := by
  simp only [after, List.foldl_append, List.foldl_cons, List.foldl_nil]

/-! ## Latching -/

/-- A tripped guard stays tripped until a sample is cool. -/
theorem tripped_of_tripped (before later : List Sample)
    (htripped : (limit.after before).tripped = true)
    (hwarm : ∀ sample ∈ later, limit.cool sample = false) :
    (limit.after (before ++ later)).tripped = true := by
  induction later using List.reverseRecOn with
  | nil => rwa [List.append_nil]
  | append_singleton later sample ih =>
      have hlater := ih fun other hmem => hwarm other (List.mem_append_left _ hmem)
      have hsample := hwarm sample (List.mem_append_right _ (List.mem_singleton_self sample))
      rw [← List.append_assoc, after_concat]
      simp only [step, hsample, hlater, Bool.not_false, Bool.true_or, Bool.and_true]

/-! ## The ceiling -/

/-- A sample beyond the ceiling trips at once. -/
theorem tripped_of_ceiling (hconsistent : limit.Consistent) (history : List Sample)
    (hceiling : limit.ceiling sample = true) :
    (limit.after (history ++ [sample])).tripped = true := by
  have hcool := hconsistent.not_cool_of_over (hconsistent.over_of_ceiling sample hceiling)
  rw [after_concat]
  simp only [step, hcool, hceiling, Bool.not_false, Bool.or_true, Bool.true_or, Bool.and_true]

/-! ## The grace period -/

/-- A streak in progress began at a sample of the history. -/
theorem exists_of_since {began : Time} (hbegan : (limit.after history).since = some began) :
    ∃ other ∈ history, began = limit.time other := by
  induction history using List.reverseRecOn generalizing began with
  | nil => exact absurd hbegan (by simp [after])
  | append_singleton before other ih =>
      rw [after_concat] at hbegan
      simp only [step, since] at hbegan
      split at hbegan
      · exact absurd hbegan (by simp)
      · cases hsince : (limit.after before).since with
        | some started =>
            rw [hsince] at hbegan
            have hsame : started = began := by
              split at hbegan <;> simpa using hbegan
            obtain ⟨earlier, hmem, htime⟩ := ih hsince
            exact ⟨earlier, List.mem_append_left _ hmem, by rw [← hsame, htime]⟩
        | none =>
            rw [hsince] at hbegan
            split at hbegan
            · exact ⟨other, by simp, by simpa using hbegan.symm⟩
            · exact absurd hbegan (by simp)

/-- A streak began no later than a sample of it over the limit. -/
theorem since_le (hconsistent : limit.Consistent) {before middle : List Sample} {first : Sample}
    (hover : limit.above first = true) (hstreak : ∀ other ∈ middle, limit.under other = false)
    (htimes : ∀ other ∈ before, limit.time other ≤ limit.time first) :
    ∃ began, (limit.after (before ++ first :: middle)).since = some began ∧
      began ≤ limit.time first := by
  induction middle using List.reverseRecOn with
  | nil =>
      have hunder := hconsistent.not_under_of_over hover
      rw [after_concat]
      simp only [step, since, hunder, hover, Bool.false_eq_true, if_false, if_true]
      cases hsince : (limit.after before).since with
      | none => exact ⟨_, rfl, le_refl _⟩
      | some began =>
          obtain ⟨other, hmem, htime⟩ := exists_of_since hsince
          exact ⟨began, rfl, htime ▸ htimes other hmem⟩
  | append_singleton middle other ih =>
      obtain ⟨began, hsince, hle⟩ := ih fun sample hmem =>
        hstreak sample (List.mem_append_left _ hmem)
      have hunder := hstreak other (List.mem_append_right _ (List.mem_singleton_self other))
      refine ⟨began, ?_, hle⟩
      rw [← List.cons_append, ← List.append_assoc, after_concat]
      simp only [step, since, hunder, hsince, Bool.false_eq_true, if_false, Option.getD_some,
        ite_self]

/-- A sample over the limit trips once the streak has lasted through the grace period. -/
theorem tripped_of_overdue [AddRightMono Time] (hconsistent : limit.Consistent)
    {before middle : List Sample} {first : Sample}
    (hhistory : history ++ [sample] = before ++ first :: middle)
    (hfirst : limit.above first = true) (hstreak : ∀ other ∈ middle, limit.under other = false)
    (htimes : ∀ other ∈ before, limit.time other ≤ limit.time first)
    (hover : limit.above sample = true)
    (hgrace : limit.time first + limit.grace ≤ limit.time sample) :
    (limit.after (history ++ [sample])).tripped = true := by
  obtain ⟨began, hsince, hle⟩ := since_le hconsistent hfirst hstreak htimes
  rw [← hhistory, after_concat] at hsince
  have hstart : limit.since (limit.after history).since sample = some began := hsince
  have hlast : began + limit.grace ≤ limit.time sample :=
    le_trans (add_le_add_left hle limit.grace) hgrace
  rw [after_concat]
  simp only [step, hconsistent.not_cool_of_over hover, overdue, hover, hstart, Option.any_some,
    hlast, decide_true, Bool.not_false, Bool.or_true, Bool.and_true]

end Limit

end Debounce
end Library
end CoreCycler
