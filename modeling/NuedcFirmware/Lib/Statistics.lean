import Mathlib.Algebra.BigOperators.Field
import Mathlib.Algebra.Order.BigOperators.Ring.Finset
import Mathlib.Tactic.FieldSimp
import Mathlib.Tactic.Ring

/-!
Mean and variance of a window of samples.

The variance is the mean square of the deviations. Computed in one pass, as the mean of the
squares less the square of the mean, it is the same (`onePassVariance_eq`), and so it is
never negative.
-/

namespace NuedcFirmware.Lib

open Finset

section Mean

variable {K : Type*} [Field K] (x : ℕ → K) (n : ℕ)

/-- The mean of the first `n` samples. -/
def mean : K := (∑ i ∈ range n, x i) / n

/-- The population variance of the first `n` samples. -/
def variance : K := (∑ i ∈ range n, (x i - mean x n) ^ 2) / n

/-- The variance from the sum of the samples and the sum of their squares. -/
def onePassVariance (sum sumSq : K) (n : ℕ) : K := sumSq / n - sum / n * (sum / n)

variable {x n}

theorem onePassVariance_eq (hn : (n : K) ≠ 0) :
    onePassVariance (∑ i ∈ range n, x i) (∑ i ∈ range n, x i * x i) n = variance x n := by
  have hsum : ∑ i ∈ range n, x i = n * mean x n := by
    rw [mean]
    field_simp
  have hsquare (i : ℕ) :
      (x i - mean x n) ^ 2 = x i * x i + (-(2 * mean x n) * x i + mean x n * mean x n) := by ring
  rw [variance, sum_congr rfl fun i _ => hsquare i, sum_add_distrib, sum_add_distrib, ← mul_sum,
    sum_const, card_range, nsmul_eq_mul, onePassVariance, hsum]
  field_simp
  ring

end Mean

theorem variance_nonneg {K : Type*} [Field K] [LinearOrder K] [IsStrictOrderedRing K] (x : ℕ → K)
    (n : ℕ) : 0 ≤ variance x n :=
  div_nonneg (sum_nonneg fun _ _ => sq_nonneg _) (Nat.cast_nonneg n)

end NuedcFirmware.Lib
