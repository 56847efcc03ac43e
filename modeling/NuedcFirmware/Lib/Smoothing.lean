import Mathlib.Algebra.Order.Field.Basic
import Mathlib.Tactic.Ring

/-!
Exponential smoothing.

A smoothed value moves from its old value a fixed part of the way towards the newest
input. It never leaves an interval that holds both, and it never overtakes: coming from
below, it ends between its old value and the input.
-/

namespace NuedcFirmware.Lib

variable {K : Type*} [Field K] [LinearOrder K] [IsStrictOrderedRing K]

/-- The value `y` after the input `x`. -/
def smooth (α x y : K) : K := α * x + (1 - α) * y

variable {α x y : K} (hα : 0 ≤ α) (hα' : α ≤ 1)
include hα hα'

theorem smooth_mem {lo hi : K} (hx : lo ≤ x ∧ x ≤ hi) (hy : lo ≤ y ∧ y ≤ hi) :
    lo ≤ smooth α x y ∧ smooth α x y ≤ hi := by
  have hrest : 0 ≤ 1 - α := sub_nonneg.mpr hα'
  have hlo := add_le_add (mul_le_mul_of_nonneg_left hx.1 hα) (mul_le_mul_of_nonneg_left hy.1 hrest)
  have hhi := add_le_add (mul_le_mul_of_nonneg_left hx.2 hα) (mul_le_mul_of_nonneg_left hy.2 hrest)
  have hconst (c : K) : α * c + (1 - α) * c = c := by ring
  rw [hconst] at hlo hhi
  exact ⟨hlo, hhi⟩

theorem smooth_mem_of_le (h : y ≤ x) : y ≤ smooth α x y ∧ smooth α x y ≤ x :=
  smooth_mem hα hα' ⟨h, le_rfl⟩ ⟨le_rfl, h⟩

theorem smooth_mem_of_ge (h : x ≤ y) : x ≤ smooth α x y ∧ smooth α x y ≤ y :=
  smooth_mem hα hα' ⟨le_rfl, h⟩ ⟨h, le_rfl⟩

end NuedcFirmware.Lib
