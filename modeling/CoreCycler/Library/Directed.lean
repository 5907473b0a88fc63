import Mathlib.Tactic

/-!
# Offsets along a direction

A search over the integers in one of two directions.  `depth` measures how far
an offset lies in the direction of search, so that statements about both
directions become statements about one order.
-/

namespace CoreCycler
namespace Library
namespace Directed

/-- One of the two directions. -/
def IsDirection (direction : Int) : Prop := direction = -1 ∨ direction = 1

/-- How far `offset` lies in `direction`. -/
def depth (direction offset : Int) : Int := direction * offset

variable {direction : Int}

theorem depth_zero : depth direction 0 = 0 := by
  simp [depth]

theorem depth_add_step (hdir : IsDirection direction) (offset step : Int) :
    depth direction (offset + direction * step) = depth direction offset + step := by
  rcases hdir with rfl | rfl <;> simp only [depth] <;> ring

theorem depth_sub_step (hdir : IsDirection direction) (offset step : Int) :
    depth direction (offset - direction * step) = depth direction offset - step := by
  rcases hdir with rfl | rfl <;> simp only [depth] <;> ring

theorem depth_inj (hdir : IsDirection direction) {first second : Int} :
    depth direction first = depth direction second ↔ first = second := by
  rcases hdir with rfl | rfl <;> simp [depth]

/-- Distances do not depend on the direction. -/
theorem natAbs_sub_eq (hdir : IsDirection direction) (first second : Int) :
    (first - second).natAbs = (depth direction first - depth direction second).natAbs := by
  rcases hdir with rfl | rfl <;> simp only [depth] <;> omega

end Directed
end Library
end CoreCycler
