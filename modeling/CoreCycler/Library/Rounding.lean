import Mathlib.Data.Int.Log
import Mathlib.Data.Rat.Floor
import Mathlib.Tactic.Linarith

/-!
# Rounding to the nearest floating-point number

The numbers of a binary format are the multiples of a unit that grows with the exponent.  An
operation on them is the exact one on rationals, rounded to the nearest of these numbers, and to
the even one of two.  Rounding never takes a number below a power of two that it has reached
(`Format.zpow_le_round`).
-/

namespace CoreCycler
namespace Library
namespace Rounding

/-! ## The nearest integer -/

/-- The nearest integer, and the even one of two. -/
def nearestEven (x : ℚ) : ℤ :=
  if x - ⌊x⌋ < 1 / 2 then ⌊x⌋
  else if 1 / 2 < x - ⌊x⌋ then ⌊x⌋ + 1
  else if 2 ∣ ⌊x⌋ then ⌊x⌋
  else ⌊x⌋ + 1

theorem floor_le_nearestEven (x : ℚ) : ⌊x⌋ ≤ nearestEven x := by
  unfold nearestEven
  split_ifs
  · exact le_refl _
  · exact (lt_add_one _).le
  · exact le_refl _
  · exact (lt_add_one _).le

theorem le_nearestEven {n : ℤ} {x : ℚ} (hle : (n : ℚ) ≤ x) : n ≤ nearestEven x :=
  le_trans (Int.le_floor.mpr hle) (floor_le_nearestEven x)

/-! ## The formats -/

/-- The digits of a number, and the exponent of the smallest unit. -/
structure Format where
  precision : ℕ
  minExponent : ℤ
  positive : 1 ≤ precision

def binary64 : Format := ⟨53, -1074, by decide⟩

/-- The exponent of the unit of a number's last digit. -/
def Format.exponent (format : Format) (x : ℚ) : ℤ :=
  max (Int.log 2 |x| - (format.precision - 1)) format.minExponent

/-- The nearest number of a format. -/
def Format.round (format : Format) (x : ℚ) : ℚ :=
  nearestEven (x / 2 ^ format.exponent x) * 2 ^ format.exponent x

theorem Format.exponent_le_log {format : Format} {x : ℚ}
    (hmin : format.minExponent ≤ Int.log 2 |x|) : format.exponent x ≤ Int.log 2 |x| := by
  refine max_le ?_ hmin
  have hpositive := format.positive
  omega

/-- A number that has reached a power of two is not rounded below it. -/
theorem Format.zpow_le_round (format : Format) {k : ℤ} (hmin : format.minExponent ≤ k) {x : ℚ}
    (hle : (2 : ℚ) ^ k ≤ x) : (2 : ℚ) ^ k ≤ format.round x := by
  have hpos : 0 < x := lt_of_lt_of_le (zpow_pos (by norm_num) k) hle
  have hlog : k ≤ Int.log 2 |x| := by
    rw [abs_of_pos hpos]
    exact (Int.zpow_le_iff_le_log (by norm_num) hpos).mp (by exact_mod_cast hle)
  have hreached : (2 : ℚ) ^ Int.log 2 |x| ≤ x := by
    rw [abs_of_pos hpos]
    exact_mod_cast Int.zpow_log_le_self (by norm_num) hpos
  have hexponent := Format.exponent_le_log (le_trans hmin hlog)
  have hunit : (0 : ℚ) < 2 ^ format.exponent x := zpow_pos (by norm_num) _
  -- The power of two that the number starts with is a multiple of the unit.
  have hsplit : (2 : ℚ) ^ Int.log 2 |x| =
      ((2 ^ (Int.log 2 |x| - format.exponent x).toNat : ℤ) : ℚ) * 2 ^ format.exponent x := by
    rw [Int.cast_pow, Int.cast_ofNat, ← zpow_natCast, Int.toNat_of_nonneg (by omega),
      ← zpow_add₀ (by norm_num)]
    congr 1
    omega
  have hnearest : (2 ^ (Int.log 2 |x| - format.exponent x).toNat : ℤ) ≤
      nearestEven (x / 2 ^ format.exponent x) := by
    refine le_nearestEven ((le_div_iff₀ hunit).mpr ?_)
    rw [← hsplit]
    exact hreached
  calc (2 : ℚ) ^ k ≤ 2 ^ Int.log 2 |x| := zpow_le_zpow_right₀ (by norm_num) hlog
    _ = ((2 ^ (Int.log 2 |x| - format.exponent x).toNat : ℤ) : ℚ) * 2 ^ format.exponent x := hsplit
    _ ≤ format.round x := mul_le_mul_of_nonneg_right (by exact_mod_cast hnearest) hunit.le

/-- 1.15 times a hundred stays below 115. -/
example : ⌊binary64.round (binary64.round (23 / 20) * 100)⌋ = 114 := by decide +kernel

end Rounding
end Library
end CoreCycler
