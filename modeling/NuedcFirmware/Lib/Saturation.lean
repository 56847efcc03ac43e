import Mathlib.Algebra.Order.Field.Basic
import Mathlib.Algebra.Order.Group.MinMax
import Mathlib.Tactic.GCongr
import Mathlib.Tactic.Linarith

/-!
Saturating accumulators.

An accumulator adds up its inputs and is cut to `[-limit, limit]` after each of them. It
forgets what was cut off: however long inputs of one sign have lasted, inputs of the other
sign bring it back to zero as soon as they add up to the limit (`accumulate_nonpos`).
-/

namespace NuedcFirmware.Lib

variable {K : Type*} [Field K] [LinearOrder K]

/-- The value cut to the limit. -/
def saturate (limit x : K) : K := max (-limit) (min x limit)

/-- The accumulator after a sequence of inputs. -/
def accumulate (limit : K) (inputs : List K) (x : K) : K :=
  inputs.foldl (fun x input => saturate limit (x + input)) x

@[simp] theorem accumulate_nil (limit x : K) : accumulate limit [] x = x := rfl

@[simp] theorem accumulate_cons (limit input : K) (inputs : List K) (x : K) :
    accumulate limit (input :: inputs) x =
      accumulate limit inputs (saturate limit (x + input)) := rfl

variable [IsStrictOrderedRing K] {limit : K} (hlimit : 0 ≤ limit)
include hlimit

theorem abs_saturate_le (x : K) : |saturate limit x| ≤ limit := by
  have hspan : -limit ≤ limit := (neg_nonpos.mpr hlimit).trans hlimit
  exact abs_le.mpr ⟨le_max_left .., max_le hspan (min_le_right ..)⟩

theorem saturate_neg (x : K) : saturate limit (-x) = -saturate limit x := by
  have hspan : -limit ≤ limit := (neg_nonpos.mpr hlimit).trans hlimit
  calc max (-limit) (min (-x) limit)
      = min (max (-limit) (-x)) limit := by rw [max_min_distrib_left, max_eq_right hspan]
    _ = min limit (-min x limit) := by rw [max_neg_neg, min_comm limit x, min_comm]
    _ = -max (-limit) (min x limit) := by rw [← min_neg_neg, neg_neg]

theorem accumulate_neg (inputs : List K) (x : K) :
    accumulate limit (inputs.map Neg.neg) (-x) = -accumulate limit inputs x := by
  induction inputs generalizing x with
  | nil => rfl
  | cons input inputs ih =>
      rw [List.map_cons, accumulate_cons, accumulate_cons, ← ih, ← neg_add,
        saturate_neg hlimit]

/-- What is above zero after a cut was so before it. -/
theorem saturate_le_max (x : K) : saturate limit x ≤ max x 0 :=
  max_le (le_max_of_le_right (neg_nonpos.mpr hlimit)) (le_max_of_le_left (min_le_left ..))

/-- Inputs of `-e` take at least that from what is above zero. -/
theorem accumulate_le_max {e : K} (he : 0 ≤ e) {inputs : List K}
    (hinputs : ∀ input ∈ inputs, input = -e) (x : K) :
    accumulate limit inputs x ≤ max (x - inputs.length * e) 0 := by
  induction inputs generalizing x with
  | nil =>
      rw [accumulate_nil, List.length_nil, Nat.cast_zero, zero_mul, sub_zero]
      exact le_max_left ..
  | cons input inputs ih =>
      obtain ⟨rfl, hrest⟩ := List.forall_mem_cons.mp hinputs
      have hrest_nonneg : 0 ≤ inputs.length * e := mul_nonneg (Nat.cast_nonneg _) he
      have hcut := saturate_le_max hlimit (x + -e)
      -- one input more for what is above zero, and nothing for what is below
      have hstep : max (x + -e) 0 - inputs.length * e ≤
          max (x - (inputs.length + 1 : ℕ) * e) 0 := by
        rw [← max_sub_sub_right]
        refine max_le_max ?_ ?_
        · push_cast
          linarith
        · linarith
      rw [accumulate_cons, List.length_cons]
      calc accumulate limit inputs (saturate limit (x + -e))
          ≤ max (saturate limit (x + -e) - inputs.length * e) 0 := ih hrest _
        _ ≤ max (x - (inputs.length + 1 : ℕ) * e) 0 :=
          max_le ((sub_le_sub_right hcut _).trans hstep) (le_max_right ..)

/-- They bring it to zero once they add up to the limit. -/
theorem accumulate_nonpos {e x : K} (hx : x ≤ limit) (he : 0 ≤ e) {inputs : List K}
    (hinputs : ∀ input ∈ inputs, input = -e) (hlong : limit ≤ inputs.length * e) :
    accumulate limit inputs x ≤ 0 := by
  have hle := accumulate_le_max hlimit he hinputs x
  rwa [max_eq_right (sub_nonpos.mpr (hx.trans hlong))] at hle

/-- The same from below. -/
theorem accumulate_nonneg {e x : K} (hx : -limit ≤ x) (he : 0 ≤ e) {inputs : List K}
    (hinputs : ∀ input ∈ inputs, input = e) (hlong : limit ≤ inputs.length * e) :
    0 ≤ accumulate limit inputs x := by
  have hneg : ∀ input ∈ inputs.map Neg.neg, input = -e := by
    intro input hinput
    obtain ⟨input, hmem, rfl⟩ := List.mem_map.mp hinput
    rw [hinputs input hmem]
  have hle := accumulate_nonpos hlimit (neg_le.mp hx) he hneg (by rwa [List.length_map])
  rwa [accumulate_neg hlimit, neg_nonpos] at hle

end NuedcFirmware.Lib
