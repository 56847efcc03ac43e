import Mathlib.Data.Set.Image
import Mathlib.Order.Bounds.Basic

/-!
Loops that look for the smallest or the largest of `n` values.

They begin with the first value and compare it with all of them. The result is the least
element of the set of the values (`isLeast_foldl_min`), so it does not depend on their
order, and it moves with them.
-/

namespace NuedcFirmware.Lib

variable {α : Type*}

theorem image_Iio_succ (f : ℕ → α) (n : ℕ) : f '' Set.Iio (n + 1) = insert (f n) (f '' Set.Iio n) := by
  rw [← Set.image_insert_eq]
  congr 1
  ext i
  simp only [Set.mem_Iio, Set.mem_insert_iff]
  omega

variable [LinearOrder α] (f : ℕ → α)

/-- Beginning with any value, the loop finds the least of this value and the others. -/
theorem isLeast_foldl_min_from (a : α) (n : ℕ) :
    IsLeast (insert a (f '' Set.Iio n)) ((List.range n).foldl (fun m i => min m (f i)) a) := by
  induction n with
  | zero =>
      have hnone : Set.Iio 0 = ∅ := Set.eq_empty_of_forall_notMem Nat.not_lt_zero
      rw [hnone, Set.image_empty, insert_empty_eq]
      exact isLeast_singleton
  | succ n ih =>
      rw [List.range_succ, List.foldl_append, image_Iio_succ, Set.insert_comm, List.foldl_cons,
        List.foldl_nil, min_comm]
      exact ih.insert (f n)

theorem isLeast_foldl_min {n : ℕ} (hn : 0 < n) :
    IsLeast (f '' Set.Iio n) ((List.range n).foldl (fun m i => min m (f i)) (f 0)) := by
  have hfrom := isLeast_foldl_min_from f (f 0) n
  have hfirst : f 0 ∈ f '' Set.Iio n := ⟨0, hn, rfl⟩
  rwa [Set.insert_eq_of_mem hfirst] at hfrom

theorem isGreatest_foldl_max {n : ℕ} (hn : 0 < n) :
    IsGreatest (f '' Set.Iio n) ((List.range n).foldl (fun m i => max m (f i)) (f 0)) :=
  isLeast_foldl_min (α := αᵒᵈ) f hn

end NuedcFirmware.Lib
