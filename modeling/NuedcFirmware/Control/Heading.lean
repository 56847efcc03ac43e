import NuedcFirmware.Control.Chassis
import NuedcFirmware.Lib.Turns

/-!
The heading as `wrap_pi_local` keeps it, in exact arithmetic.

Both loops are instances of `whileLoop` that take turns away from a positive angle, or add
them to a negative one. So they come to an end (`wrapPiLocal_terminates`), in `[-pi, pi]`
and a whole number of turns away from the start.
-/

namespace NuedcFirmware.Control

open NuedcFirmware.Lib

theorem one_lt_mPi : (1 : ℝ) < mPi := by norm_num [mPi]

theorem wrapDown_eq_whileLoop (fuel : ℕ) (x : ℝ) :
    wrapDown fuel x = whileLoop (· > mPi) (· - 2.0 * mPi) fuel x := by
  induction fuel generalizing x with
  | zero => rfl
  | succ fuel ih => rw [wrapDown, whileLoop, ih]

theorem wrapUp_eq_whileLoop (fuel : ℕ) (x : ℝ) :
    wrapUp fuel x = whileLoop (· < -mPi) (· + 2.0 * mPi) fuel x := by
  induction fuel generalizing x with
  | zero => rfl
  | succ fuel ih => rw [wrapUp, whileLoop, ih]

/-! ### The loops come to an end -/

theorem one_le_turn : (1 : ℝ) ≤ 2.0 * mPi := by norm_num [mPi]

theorem pos_of_gt (x : ℝ) (hx : x > mPi) : 0 < x := by
  have hpi := one_lt_mPi
  linarith

theorem neg_of_lt (x : ℝ) (hx : x < -mPi) : x < 0 := by
  have hpi := one_lt_mPi
  linarith

section Down

variable {x : ℝ} {fuel : ℕ} (hfuel : |x| ≤ fuel)
include hfuel

theorem wrapDown_le : wrapDown fuel x ≤ mPi := by
  rw [wrapDown_eq_whileLoop]
  exact not_lt.mp (not_cond_descend one_le_turn pos_of_gt ((le_abs_self x).trans hfuel))

theorem wrapDown_of_le {fuel' : ℕ} (hle : fuel ≤ fuel') : wrapDown fuel' x = wrapDown fuel x := by
  rw [wrapDown_eq_whileLoop, wrapDown_eq_whileLoop]
  exact descend_of_le one_le_turn pos_of_gt ((le_abs_self x).trans hfuel) hle

end Down

/-- The first loop ends no lower than it began, or above `-pi`. -/
theorem neg_abs_le_wrapDown (fuel : ℕ) (x : ℝ) : -|x| ≤ wrapDown fuel x := by
  rw [wrapDown_eq_whileLoop]
  refine (whileLoop_invariant (I := fun y => -|x| ≤ y ∧ y ≤ |x|) (fun y hy hcond => ?_)
    ⟨neg_abs_le x, le_abs_self x⟩ fuel).1
  have hpi := one_lt_mPi
  norm_num
  constructor <;> linarith [hy.1, hy.2]

section Up

variable {x : ℝ} {fuel : ℕ} (hfuel : -x ≤ fuel)
include hfuel

theorem neg_le_wrapUp : -mPi ≤ wrapUp fuel x := by
  rw [wrapUp_eq_whileLoop]
  exact not_lt.mp (not_cond_ascend one_le_turn neg_of_lt hfuel)

theorem wrapUp_of_le {fuel' : ℕ} (hle : fuel ≤ fuel') : wrapUp fuel' x = wrapUp fuel x := by
  rw [wrapUp_eq_whileLoop, wrapUp_eq_whileLoop]
  exact ascend_of_le one_le_turn neg_of_lt hfuel hle

end Up

theorem wrapUp_le {x : ℝ} (hx : x ≤ mPi) (fuel : ℕ) : wrapUp fuel x ≤ mPi := by
  rw [wrapUp_eq_whileLoop]
  refine whileLoop_invariant (I := fun y => y ≤ mPi) (fun y _ hcond => ?_) hx fuel
  norm_num
  linarith

theorem wrapPiLocal_mem (x : ℝ) : -mPi ≤ wrapPiLocal x ∧ wrapPiLocal x ≤ mPi := by
  have hfuel := abs_le_natAbs_truncate x
  have hup := neg_abs_le_wrapDown ((truncate x).natAbs + 1) x
  exact ⟨neg_le_wrapUp (by linarith), wrapUp_le (wrapDown_le hfuel) _⟩

/-- Both loops exit: from some number of rounds on, more rounds change nothing, and what
`wrap_pi_local` returns is where the second loop exits. -/
theorem wrapPiLocal_terminates (x : ℝ) :
    ∃ y rounds, y ≤ mPi ∧ (∀ fuel ≥ rounds, wrapDown fuel x = y) ∧
      ∀ fuel ≥ rounds, wrapUp fuel y = wrapPiLocal x := by
  have hfuel := abs_le_natAbs_truncate x
  have hup := neg_abs_le_wrapDown ((truncate x).natAbs + 1) x
  exact ⟨_, _, wrapDown_le hfuel, fun _ => wrapDown_of_le hfuel,
    fun _ => wrapUp_of_le (by linarith)⟩

/-! ### Whole turns -/

theorem modEq_wrapPiLocal (x : ℝ) : wrapPiLocal x ≡ x [PMOD 2 * mPi] := by
  have hturn : (2.0 : ℝ) * mPi = 2 * mPi := by norm_num
  rw [wrapPiLocal, wrapUp_eq_whileLoop, wrapDown_eq_whileLoop, hturn]
  exact (modEq_ascend _ _).trans (modEq_descend _ _)

end NuedcFirmware.Control
