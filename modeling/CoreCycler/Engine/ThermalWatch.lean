import Mathlib.Algebra.Order.Ring.Rat
import Mathlib.Tactic.Linarith
import CoreCycler.Library.Debounce
import CoreCycler.Engine.Execution

/-!
# The thermal watch over a whole run

`ThermalWatch.safe` with its soft limit, its hard ceiling, its grace period and its
hysteresis.  Its two fields are those of a debounced limit (`Library.Debounce`), except that
a tripped watch no longer notes when a streak began: `Tracks` is the relation a reading
keeps, and what the watch answers after any history follows from the limit.
-/

namespace CoreCycler
namespace Engine

open Library

structure ThermalWatch where
  maxTemperature : ℚ
  graceSeconds : ℚ
  hardMargin : ℚ
  requireSensor : Bool
  tripped : Bool := false
  /-- `_over_since`. -/
  overSince : Option ℚ := none
  lastTemperature : Option ℚ := none

/-- A reading of the sensor, which may be missing, and the clock at it. -/
structure Reading where
  time : ℚ
  temp : Option ℚ

namespace Reading

def Over (reading : Reading) (limit : ℚ) : Prop := ∃ temp ∈ reading.temp, limit ≤ temp

def Below (reading : Reading) (limit : ℚ) : Prop := ∃ temp ∈ reading.temp, temp < limit

instance (reading : Reading) (limit : ℚ) : Decidable (reading.Over limit) :=
  inferInstanceAs (Decidable (∃ temp ∈ reading.temp, limit ≤ temp))

instance (reading : Reading) (limit : ℚ) : Decidable (reading.Below limit) :=
  inferInstanceAs (Decidable (∃ temp ∈ reading.temp, temp < limit))

end Reading

namespace ThermalWatch

/-- `HYSTERESIS`. -/
def hysteresis : ℚ := 5

def safe (watch : ThermalWatch) (reading : Reading) : Bool × ThermalWatch :=
  match reading.temp with
  | none =>
      (!watch.requireSensor && !watch.tripped, { watch with lastTemperature := none })
  | some temp =>
      let watch := { watch with lastTemperature := some temp }
      let limit := watch.maxTemperature
      if limit ≤ temp then
        -- Past the margin there is no grace.
        if limit + watch.hardMargin ≤ temp then (false, { watch with tripped := true })
        else if watch.tripped then (false, watch)
        else
          let now := reading.time
          -- The grace runs from the first reading over the limit.
          let since := watch.overSince.getD now
          let watch := { watch with overSince := some since }
          if watch.graceSeconds ≤ now - since then (false, { watch with tripped := true })
          else (true, watch)
      else
        let watch := { watch with overSince := none }
        if watch.tripped then
          -- A watch that has tripped waits until it is well below the limit.
          if temp < limit - hysteresis then (true, { watch with tripped := false })
          else (false, watch)
        else (true, watch)

/-- A new watch. -/
def new (maxTemperature graceSeconds hardMargin : ℚ) (requireSensor : Bool) : ThermalWatch :=
  { maxTemperature, graceSeconds, hardMargin, requireSensor }

/-- The watch once it has read a history. -/
def after (watch : ThermalWatch) (history : List Reading) : ThermalWatch :=
  history.foldl (fun watch reading => (watch.safe reading).2) watch

/-- What `_thermal_failed` makes of a reading. -/
def finding (watch : ThermalWatch) (reading : Reading) : Thermal :=
  if (watch.safe reading).1 then .safe
  else if (watch.safe reading).2.lastTemperature = none then .lost
  else .exceeded

/-! ## The limit it keeps -/

/-- The limit of a watch: a missing reading neither starts nor ends a streak. -/
def limit (watch : ThermalWatch) : Debounce.Limit Reading ℚ where
  time := Reading.time
  above := fun reading => decide (reading.Over watch.maxTemperature)
  under := fun reading => decide (reading.Below watch.maxTemperature)
  ceiling := fun reading => decide (reading.Over (watch.maxTemperature + watch.hardMargin))
  cool := fun reading => decide (reading.Below (watch.maxTemperature - hysteresis))
  grace := watch.graceSeconds

theorem limit_consistent (watch : ThermalWatch) (hmargin : 0 ≤ watch.hardMargin) :
    watch.limit.Consistent where
  under_of_cool := by
    intro reading hcool
    obtain ⟨temp, htemp, hlt⟩ := of_decide_eq_true hcool
    refine decide_eq_true ⟨temp, htemp, ?_⟩
    have hgap : (0 : ℚ) < hysteresis := by decide
    linarith
  over_of_ceiling := by
    intro reading hceiling
    obtain ⟨temp, htemp, hle⟩ := of_decide_eq_true hceiling
    exact decide_eq_true ⟨temp, htemp, by linarith⟩
  not_both := by
    intro reading hunder
    obtain ⟨temp, htemp, hlt⟩ := of_decide_eq_true hunder
    refine decide_eq_false ?_
    rintro ⟨other, hother, hle⟩
    rw [Option.mem_def] at htemp hother
    rw [htemp, Option.some.injEq] at hother
    subst hother
    linarith

/-- What a watch remembers is what a guard of its limit remembers, but for a streak that
lasts while the watch is tripped. -/
structure Tracks (watch : ThermalWatch) (guard : Debounce.Guard ℚ) : Prop where
  tripped : watch.tripped = guard.tripped
  since : watch.tripped = false → watch.overSince = guard.since

/-- A reading leaves the limit as it is. -/
@[simp] theorem limit_safe (watch : ThermalWatch) (reading : Reading) :
    (watch.safe reading).2.limit = watch.limit := by
  unfold safe limit
  split
  · rfl
  · dsimp only
    split_ifs <;> rfl

@[simp] theorem hardMargin_safe (watch : ThermalWatch) (reading : Reading) :
    (watch.safe reading).2.hardMargin = watch.hardMargin := by
  unfold safe
  split
  · rfl
  · dsimp only
    split_ifs <;> rfl

@[simp] theorem requireSensor_safe (watch : ThermalWatch) (reading : Reading) :
    (watch.safe reading).2.requireSensor = watch.requireSensor := by
  unfold safe
  split
  · rfl
  · dsimp only
    split_ifs <;> rfl

/-- A reading is safe unless it leaves the watch tripped, or is missing where it must not be. -/
theorem safe_eq (watch : ThermalWatch) (reading : Reading) :
    (watch.safe reading).1 =
      (!(watch.safe reading).2.tripped && !(watch.requireSensor && reading.temp.isNone)) := by
  unfold safe
  cases htemp : reading.temp with
  | none =>
      simp only [Option.isNone_none, Bool.and_true]
      exact Bool.and_comm _ _
  | some temp =>
      simp only [Option.isNone_some, Bool.and_false, Bool.not_false, Bool.and_true]
      split_ifs <;> simp_all

variable {watch : ThermalWatch} {guard : Debounce.Guard ℚ} {reading : Reading}

theorem over_iff {temp bound : ℚ} (htemp : reading.temp = some temp) :
    reading.Over bound ↔ bound ≤ temp := by
  simp only [Reading.Over, htemp, Option.mem_some_iff, exists_eq_left']

theorem below_iff {temp bound : ℚ} (htemp : reading.temp = some temp) :
    reading.Below bound ↔ temp < bound := by
  simp only [Reading.Below, htemp, Option.mem_some_iff, exists_eq_left']

/-- A missing reading changes nothing that a guard remembers. -/
theorem step_of_none (hmissing : reading.temp = none) :
    watch.limit.step guard reading = guard := by
  have hover : ∀ bound, ¬ reading.Over bound := by
    rintro bound ⟨temp, htemp, -⟩
    rw [hmissing] at htemp
    exact absurd htemp (by simp)
  have hbelow : ∀ bound, ¬ reading.Below bound := by
    rintro bound ⟨temp, htemp, -⟩
    rw [hmissing] at htemp
    exact absurd htemp (by simp)
  simp [limit, Debounce.Limit.step, Debounce.Limit.since, Debounce.Limit.overdue, hover, hbelow]

/-- One reading: what the watch remembers stays what a guard remembers. -/
theorem Tracks.safe (htracks : Tracks watch guard) (reading : Reading)
    (hmargin : 0 ≤ watch.hardMargin) :
    Tracks (watch.safe reading).2 (watch.limit.step guard reading) := by
  cases htemp : reading.temp with
  | none =>
      rw [step_of_none htemp]
      unfold ThermalWatch.safe
      rw [htemp]
      exact ⟨htracks.tripped, htracks.since⟩
  | some temp =>
      obtain ⟨htripped, hsince⟩ := htracks
      have hgap : (0 : ℚ) < hysteresis := by decide
      unfold ThermalWatch.safe
      rw [htemp]
      simp only [limit, Debounce.Limit.step, Debounce.Limit.since, Debounce.Limit.overdue,
        over_iff htemp, below_iff htemp]
      by_cases hover : watch.maxTemperature ≤ temp
      · have hunder : ¬ temp < watch.maxTemperature := not_lt.mpr hover
        have hcool : ¬ temp < watch.maxTemperature - hysteresis := by linarith
        simp only [hover, hunder, hcool, decide_true, decide_false, Bool.not_false,
          Bool.true_and, Bool.false_eq_true, if_true, if_false, Option.any_some]
        by_cases hceiling : watch.maxTemperature + watch.hardMargin ≤ temp
        · simp only [hceiling, if_true, decide_true, Bool.or_true, Bool.true_or]
          exact ⟨rfl, fun hnot => absurd hnot (by simp)⟩
        · simp only [hceiling, if_false, decide_false, Bool.or_false]
          cases hlatched : watch.tripped with
          | true =>
              rw [← htripped, hlatched]
              exact ⟨rfl, fun hnot => absurd hnot (by simp)⟩
          | false =>
              -- An untripped watch measures the same streak as the guard.
              have hlast : watch.graceSeconds ≤ reading.time - guard.since.getD reading.time ↔
                  guard.since.getD reading.time + watch.graceSeconds ≤ reading.time := by
                constructor
                · intro hle
                  linarith
                · intro hle
                  linarith
              rw [← htripped, hlatched, hsince hlatched]
              simp only [hlast, Bool.false_or, Bool.false_eq_true, if_false]
              split
              · exact ⟨(decide_eq_true ‹_›).symm, fun hnot => absurd hnot (by simp)⟩
              · exact ⟨(decide_eq_false ‹_›).symm, fun _ => rfl⟩
      · have hunder : temp < watch.maxTemperature := not_le.mp hover
        have hceiling : ¬ watch.maxTemperature + watch.hardMargin ≤ temp := by linarith
        simp only [hover, hunder, hceiling, decide_false, decide_true, Bool.or_false,
          Bool.false_and, if_true, if_false]
        cases hlatched : watch.tripped with
        | true =>
            rw [← htripped, hlatched]
            by_cases hcool : temp < watch.maxTemperature - hysteresis
            · simp only [hcool, if_true, decide_true, Bool.not_true, Bool.false_and]
              exact ⟨rfl, fun _ => rfl⟩
            · simp only [hcool, if_true, if_false, decide_false, Bool.not_false, Bool.and_true]
              exact ⟨rfl, fun _ => rfl⟩
        | false =>
            rw [← htripped, hlatched]
            simp only [Bool.false_eq_true, if_false, Bool.and_false]
            exact ⟨rfl, fun _ => rfl⟩

@[simp] theorem after_concat (watch : ThermalWatch) (history : List Reading)
    (reading : Reading) :
    watch.after (history ++ [reading]) = ((watch.after history).safe reading).2 := by
  simp only [after, List.foldl_append, List.foldl_cons, List.foldl_nil]

theorem limit_after (watch : ThermalWatch) (history : List Reading) :
    (watch.after history).limit = watch.limit ∧
      (watch.after history).hardMargin = watch.hardMargin ∧
      (watch.after history).requireSensor = watch.requireSensor := by
  induction history using List.reverseRecOn with
  | nil => exact ⟨rfl, rfl, rfl⟩
  | append_singleton history reading ih =>
      rw [after_concat, limit_safe, hardMargin_safe, requireSensor_safe]
      exact ih

/-- Over a whole history, the watch remembers what a guard of its limit remembers. -/
theorem tracks_after (maxTemperature graceSeconds hardMargin : ℚ) (requireSensor : Bool)
    (hmargin : 0 ≤ hardMargin) (history : List Reading) :
    Tracks ((new maxTemperature graceSeconds hardMargin requireSensor).after history)
      ((new maxTemperature graceSeconds hardMargin requireSensor).limit.after history) := by
  induction history using List.reverseRecOn with
  | nil => exact ⟨rfl, fun _ => rfl⟩
  | append_singleton history reading ih =>
      obtain ⟨hlimit, hkept, -⟩ :=
        limit_after (new maxTemperature graceSeconds hardMargin requireSensor) history
      rw [after_concat, Debounce.Limit.after_concat, ← hlimit]
      exact (hlimit ▸ ih).safe reading (hkept ▸ hmargin)

/-! ## What it answers -/

/-- `first` and `last` belong to one streak over the limit, and `last` is read last: none
between them is below it. -/
def InStreak (bound : ℚ) (history : List Reading) (first last : Reading) : Prop :=
  ∃ before middle, history = before ++ first :: middle ∧ history.getLast? = some last ∧
    first.Over bound ∧ last.Over bound ∧ ∀ reading ∈ middle, ¬ reading.Below bound

/-- The watch obeys its limits over every history of readings: it is never safe at the hard
ceiling, nor over the limit once the streak has lasted through the grace period; a trip
lasts until the temperature is below the hysteresis band; and without a trip it is unsafe
only for want of a required sensor. -/
theorem safe_obeys_limits (maxTemperature graceSeconds hardMargin : ℚ) (requireSensor : Bool)
    (hmargin : 0 ≤ hardMargin) (history : List Reading) (reading : Reading)
    (htimes : (history ++ [reading]).Pairwise fun earlier later => earlier.time ≤ later.time) :
    let watch := new maxTemperature graceSeconds hardMargin requireSensor
    let answer := ((watch.after history).safe reading).1
    (reading.Over (maxTemperature + hardMargin) → answer = false) ∧
    (∀ first, InStreak maxTemperature (history ++ [reading]) first reading →
      graceSeconds ≤ reading.time - first.time → answer = false) ∧
    (∀ before later, history = before ++ later → (watch.after before).tripped = true →
      (∀ other ∈ later ++ [reading], ¬ other.Below (maxTemperature - hysteresis)) →
      answer = false) ∧
    (answer = false → (watch.after (history ++ [reading])).tripped = false →
      reading.temp = none ∧ requireSensor = true) := by
  intro watch answer
  have hconsistent : watch.limit.Consistent := watch.limit_consistent hmargin
  have htracks := tracks_after maxTemperature graceSeconds hardMargin requireSensor hmargin
    (history ++ [reading])
  -- The watch answers as its limit stands, unless a sensor is required and missing.
  have hunsafe : (watch.limit.after (history ++ [reading])).tripped = true → answer = false := by
    intro htripped
    have hsame := htracks.tripped.trans htripped
    rw [after_concat] at hsame
    show ((watch.after history).safe reading).1 = false
    rw [safe_eq, hsame]
    rfl
  refine ⟨?_, ?_, ?_, ?_⟩
  · intro hceiling
    exact hunsafe (Debounce.Limit.tripped_of_ceiling hconsistent history (decide_eq_true hceiling))
  · rintro first ⟨before, middle, hhistory, -, hfirst, hover, hstreak⟩ helapsed
    refine hunsafe (Debounce.Limit.tripped_of_overdue hconsistent hhistory
      (decide_eq_true hfirst) (fun other hmem => decide_eq_false (hstreak other hmem)) ?_
      (decide_eq_true hover) ?_)
    · intro other hmem
      rw [hhistory] at htimes
      exact (List.pairwise_append.mp htimes).2.2 other hmem first List.mem_cons_self
    · show first.time + graceSeconds ≤ reading.time
      linarith
  · rintro before later rfl htripped hwarm
    have hbefore := (tracks_after maxTemperature graceSeconds hardMargin requireSensor hmargin
      before).tripped
    refine hunsafe ?_
    rw [List.append_assoc]
    exact Debounce.Limit.tripped_of_tripped before (later ++ [reading])
      (hbefore.symm.trans htripped) fun other hmem => decide_eq_false (hwarm other hmem)
  · intro hanswer huntripped
    obtain ⟨-, -, hrequire⟩ := watch.limit_after history
    have hnot : ((watch.after history).safe reading).1 = false := hanswer
    rw [after_concat] at huntripped
    rw [safe_eq, huntripped, hrequire] at hnot
    have hboth : requireSensor = true ∧ reading.temp.isNone = true := by
      simpa [watch, new] using hnot
    exact ⟨Option.isNone_iff_eq_none.mp hboth.2, hboth.1⟩

/-- A reading is missed within a streak, and the streak goes on to the end of the grace. -/
theorem safe_obeys_limits_sample :
    (([⟨0, some 96⟩, ⟨1, none⟩, ⟨2, some 97⟩] ++ [⟨4, some 98⟩] : List Reading).Pairwise
      fun earlier later => earlier.time ≤ later.time) ∧
    (((new 95 3 8 false).after [⟨0, some 96⟩, ⟨1, none⟩, ⟨2, some 97⟩]).safe
      ⟨4, some 98⟩).1 = false := by
  have htimes : ([⟨0, some 96⟩, ⟨1, none⟩, ⟨2, some 97⟩] ++ [⟨4, some 98⟩] :
      List Reading).Pairwise fun earlier later => earlier.time ≤ later.time := by
    decide
  refine ⟨htimes, (safe_obeys_limits 95 3 8 false (by norm_num) _ _ htimes).2.1 ⟨0, some 96⟩
    ⟨[], [⟨1, none⟩, ⟨2, some 97⟩, ⟨4, some 98⟩], rfl, rfl, by decide, by decide, by decide⟩ ?_⟩
  norm_num

end ThermalWatch

end Engine
end CoreCycler
