import Mathlib.Algebra.BigOperators.Field
import Mathlib.Algebra.BigOperators.Intervals
import Mathlib.Algebra.BigOperators.Ring.Finset
import Mathlib.Algebra.Order.BigOperators.Group.Finset
import Mathlib.Algebra.Order.Field.Basic
import Mathlib.Tactic.FieldSimp
import Mathlib.Tactic.Linarith
import Mathlib.Tactic.Ring

/-!
The centre of a profile over a row of channels.

The `n` channels of a row stand at the places `-(n - 1)`, `-(n - 3)`, ..., `n - 1`,
and a profile `v` gives each of them a mass. Its centre is the mean place, scaled to
`[-1, 1]`.

The moment of a profile is bounded by its mass (`abs_moment_le`), so the centre is
where it should be (`centre_mem`). And by summation by parts the moment is made up of
the tails of the profile (`moment_eq_tails`), so a profile that has moved to the right,
in the sense that no share of mass right of a channel has become smaller, has its centre
further right (`centre_le_centre`).
-/

namespace NuedcFirmware.Lib

open Finset

/-- The place of channel `i` in a row of `n`. -/
def place (n i : ℕ) : ℤ := 2 * i - (n - 1)

theorem abs_place_le {n i : ℕ} (h : i < n) : |place n i| ≤ n - 1 := by
  rw [place, abs_le]
  omega

/-- A loop that adds up the values at `0`, ..., `k - 1` computes their sum. -/
theorem foldl_add_range {M : Type*} [AddCommMonoid M] (f : ℕ → M) (k : ℕ) :
    (List.range k).foldl (fun sum i => sum + f i) 0 = ∑ i ∈ range k, f i := by
  induction k with
  | zero => rfl
  | succ k ih => rw [List.range_succ, List.foldl_append, ih, sum_range_succ]; rfl

/-- The mass of the first `k` channels. -/
def mass {M : Type*} [AddCommMonoid M] (v : ℕ → M) (k : ℕ) : M := ∑ i ∈ range k, v i

section Moment

variable {R : Type*} [CommRing R]

/-- The moment of the first `k` channels of a row of `n`. -/
def moment (n : ℕ) (v : ℕ → R) (k : ℕ) : R := ∑ i ∈ range k, (place n i : R) * v i

/-- The mass from channel `k` on. -/
def tail (n : ℕ) (v : ℕ → R) (k : ℕ) : R := ∑ i ∈ Ico k n, v i

variable (v : ℕ → R)

/-- Summation by parts: channel `i` is counted once in each of the tails
from `1` to `i`. -/
theorem sum_mul_eq_tails (n : ℕ) :
    ∑ i ∈ range n, (i : R) * v i = ∑ k ∈ Ico 1 n, tail n v k := by
  induction n with
  | zero => simp
  | succ n ih =>
      rcases Nat.eq_zero_or_pos n with rfl | hn
      · simp
      · -- one channel more adds its mass to each of the `n` tails
        have htail : ∀ k ∈ Ico 1 (n + 1), tail (n + 1) v k = tail n v k + v n := by
          intro k hk
          exact sum_Ico_succ_top (Nat.lt_succ_iff.mp (mem_Ico.mp hk).2) v
        have hlast : tail n v n = 0 := by simp [tail]
        rw [sum_range_succ, ih, sum_congr rfl htail, sum_add_distrib, sum_Ico_succ_top hn, hlast,
          add_zero]
        simp

theorem cast_mass (v : ℕ → ℕ) (k : ℕ) : ((mass v k : ℕ) : R) = mass (fun i => (v i : R)) k :=
  Nat.cast_sum ..

theorem cast_moment (n : ℕ) (v : ℕ → ℤ) (k : ℕ) :
    ((moment n v k : ℤ) : R) = moment n (fun i => (v i : R)) k := by
  simp [moment]

theorem moment_eq_tails (n : ℕ) :
    moment n v n = 2 * ∑ k ∈ Ico 1 n, tail n v k - ((n : R) - 1) * mass v n := by
  rw [← sum_mul_eq_tails, mass, mul_sum, mul_sum, ← sum_sub_distrib, moment]
  refine sum_congr rfl fun i _ => ?_
  rw [place]
  push_cast
  ring

variable {v}

theorem mass_congr {M : Type*} [AddCommMonoid M] {u v : ℕ → M} {k : ℕ} (h : ∀ i < k, u i = v i) :
    mass u k = mass v k :=
  sum_congr rfl fun i hi => h i (mem_range.mp hi)

theorem moment_congr {u : ℕ → R} {n k : ℕ} (h : ∀ i < k, u i = v i) :
    moment n u k = moment n v k :=
  sum_congr rfl fun i hi => by rw [h i (mem_range.mp hi)]

/-- A row seen from its other end has the same mass. -/
theorem mass_reflect {M : Type*} [AddCommMonoid M] (v : ℕ → M) (n : ℕ) :
    mass (fun i => v (n - 1 - i)) n = mass v n :=
  sum_range_reflect v n

/-- The places of a row are symmetric, so its moment changes its sign. -/
theorem moment_reflect (v : ℕ → R) (n : ℕ) :
    moment n (fun i => v (n - 1 - i)) n = -moment n v n := by
  have hplace : ∀ i ∈ range n, (place n i : R) * v (n - 1 - i) =
      -((place n (n - 1 - i) : R) * v (n - 1 - i)) := by
    intro i hi
    have hneg : place n i = -place n (n - 1 - i) := by
      have hlt := mem_range.mp hi
      simp only [place]
      omega
    rw [hneg, Int.cast_neg, neg_mul]
  rw [moment, sum_congr rfl hplace, sum_neg_distrib,
    sum_range_reflect (fun i => (place n i : R) * v i), moment]

variable [LinearOrder R] [IsStrictOrderedRing R]

theorem abs_moment_le {n k : ℕ} (hk : k ≤ n) (hv : ∀ i < k, 0 ≤ v i) :
    |moment n v k| ≤ ((n : R) - 1) * mass v k := by
  refine (abs_sum_le_sum_abs _ _).trans ?_
  rw [mass, mul_sum]
  refine sum_le_sum fun i hi => ?_
  have hik := mem_range.mp hi
  have hplace : |(place n i : R)| ≤ (n : R) - 1 := by
    exact_mod_cast abs_place_le (hik.trans_le hk)
  rw [abs_mul, abs_of_nonneg (hv i hik)]
  exact mul_le_mul_of_nonneg_right hplace (hv i hik)

end Moment

section Centre

variable {K : Type*} [Field K]

/-- The centre of a profile over `n` channels. -/
def centre (n : ℕ) (v : ℕ → K) : K := moment n v n / (mass v n * ((n : K) - 1))

/-- The share of the mass from channel `k` on. -/
def share (n : ℕ) (v : ℕ → K) (k : ℕ) : K := tail n v k / mass v n

variable [LinearOrder K] [IsStrictOrderedRing K] {n : ℕ} {u v : ℕ → K}

theorem one_lt_cast {n : ℕ} (hn : 2 ≤ n) : (0 : K) < n - 1 := by
  have htwo : (2 : K) ≤ n := by exact_mod_cast hn
  linarith

theorem centre_mem (hn : 2 ≤ n) (hv : ∀ i < n, 0 ≤ v i) (hmass : 0 < mass v n) :
    -1 ≤ centre n v ∧ centre n v ≤ 1 := by
  have hdivisor : 0 < mass v n * ((n : K) - 1) := mul_pos hmass (one_lt_cast hn)
  have hmoment := abs_moment_le le_rfl hv
  rw [← abs_le, centre, abs_div, abs_of_pos hdivisor, div_le_one hdivisor, mul_comm (mass v n)]
  exact hmoment

/-- The centre by the shares: each channel boundary adds what lies right of it. -/
theorem centre_eq_shares (hn : 2 ≤ n) (hmass : mass v n ≠ 0) :
    centre n v = 2 / ((n : K) - 1) * ∑ k ∈ Ico 1 n, share n v k - 1 := by
  have hspan : (n : K) - 1 ≠ 0 := (one_lt_cast hn).ne'
  have hshares : ∑ k ∈ Ico 1 n, share n v k = (∑ k ∈ Ico 1 n, tail n v k) / mass v n := by
    rw [sum_div]
    rfl
  rw [centre, moment_eq_tails, hshares]
  field_simp

theorem centre_le_centre (hn : 2 ≤ n) (hu : mass u n ≠ 0) (hv : mass v n ≠ 0)
    (h : ∀ k, share n u k ≤ share n v k) : centre n u ≤ centre n v := by
  have hspan : (0 : K) ≤ 2 / ((n : K) - 1) := (div_pos two_pos (one_lt_cast hn)).le
  have hsum := mul_le_mul_of_nonneg_left (sum_le_sum fun k (_ : k ∈ Ico 1 n) => h k) hspan
  rw [centre_eq_shares hn hu, centre_eq_shares hn hv]
  exact sub_le_sub_right hsum 1

end Centre

end NuedcFirmware.Lib
