import Mathlib.Algebra.Order.Field.Power
import Mathlib.Data.Int.Log
import Mathlib.Data.Rat.Floor
import Mathlib.Tactic.Linarith
import Mathlib.Tactic.NormNum
import Mathlib.Tactic.Ring

/-!
Rounding to the nearest, ties to even: to an integer, and to the last place of a binary
format with a number of significant bits and a least exponent. What rounding moves a number
by is bounded by half a unit (`abs_roundHalfEven_sub_le`), and for the numbers that are
normal in the format by a part of the number itself (`abs_roundFloat_sub_le`).

Two formats are given by name: `Binary32` by its bits, as a program stores it, and `Binary64`
by its value.
-/

namespace NuedcFirmware.Lib

/-- The nearest integer, and the even one of two that are as near. -/
def roundHalfEven (x : ℚ) : ℤ :=
  if 2 * Int.fract x < 1 then ⌊x⌋
  else if 1 < 2 * Int.fract x then ⌊x⌋ + 1
  else if ⌊x⌋ % 2 = 0 then ⌊x⌋
  else ⌊x⌋ + 1

/-- The exponent of the last place of a number, in a format of `precision` bits. -/
def lastPlace (precision : ℕ) (least : ℤ) (x : ℚ) : ℤ :=
  max (Int.log 2 |x| + 1 - precision) least

/-- Rounding to a format of `precision` bits whose places begin at `least`. -/
def roundFloat (precision : ℕ) (least : ℤ) (x : ℚ) : ℚ :=
  roundHalfEven (x / 2 ^ lastPlace precision least x) * 2 ^ lastPlace precision least x

theorem abs_roundHalfEven_sub_le (x : ℚ) : |(roundHalfEven x : ℚ) - x| ≤ 1 / 2 := by
  have hfract : x = ⌊x⌋ + Int.fract x := (Int.floor_add_fract x).symm
  have hnonneg := Int.fract_nonneg x
  have hlt := Int.fract_lt_one x
  have hround : roundHalfEven x = ⌊x⌋ ∧ 2 * Int.fract x ≤ 1 ∨
      roundHalfEven x = ⌊x⌋ + 1 ∧ 1 ≤ 2 * Int.fract x := by
    rw [roundHalfEven]
    split_ifs with hlow hhigh
    · exact Or.inl ⟨rfl, hlow.le⟩
    · exact Or.inr ⟨rfl, hhigh.le⟩
    · exact Or.inl ⟨rfl, not_lt.mp hhigh⟩
    · exact Or.inr ⟨rfl, not_lt.mp hlow⟩
  rw [abs_le]
  rcases hround with ⟨h, hle⟩ | ⟨h, hle⟩
  · rw [h]
    constructor <;> linarith
  · rw [h, Int.cast_add, Int.cast_one]
    constructor <;> linarith

theorem roundHalfEven_nonneg {x : ℚ} (h : 0 ≤ x) : 0 ≤ roundHalfEven x := by
  have hfloor : 0 ≤ ⌊x⌋ := Int.floor_nonneg.mpr h
  rw [roundHalfEven]
  split_ifs <;> omega

/-- Rounding moves a number by at most half a unit of its last place. -/
theorem abs_roundFloat_sub_le_place (precision : ℕ) (least : ℤ) (x : ℚ) :
    |roundFloat precision least x - x| ≤ 2 ^ lastPlace precision least x / 2 := by
  have hpos : (0 : ℚ) < 2 ^ lastPlace precision least x := zpow_pos two_pos _
  rw [roundFloat]
  generalize hu : (2 : ℚ) ^ lastPlace precision least x = u at hpos ⊢
  have hx : x = x / u * u := (div_mul_cancel₀ x hpos.ne').symm
  calc |(roundHalfEven (x / u) : ℚ) * u - x|
      = |(roundHalfEven (x / u) : ℚ) - x / u| * u := by
        conv_lhs => rw [hx, mul_div_cancel_right₀ _ hpos.ne']
        rw [← sub_mul, abs_mul, abs_of_pos hpos]
    _ ≤ 1 / 2 * u := mul_le_mul_of_nonneg_right (abs_roundHalfEven_sub_le _) hpos.le
    _ = u / 2 := by ring

/-- A number that is normal in the format is moved by a small part of itself. -/
theorem abs_roundFloat_sub_le {precision : ℕ} {least : ℤ} {x : ℚ}
    (h : (2 : ℚ) ^ (least + precision - 1) ≤ |x|) :
    |roundFloat precision least x - x| ≤ |x| / 2 ^ precision := by
  have hpos : 0 < |x| := (zpow_pos two_pos _).trans_le h
  have hlog : least + precision - 1 ≤ Int.log 2 |x| := by
    apply (Int.zpow_le_iff_le_log one_lt_two hpos).mp
    exact_mod_cast h
  have hplace : lastPlace precision least x = Int.log 2 |x| + 1 - precision :=
    max_eq_left (by omega)
  have hle : (2 : ℚ) ^ Int.log 2 |x| ≤ |x| := by
    exact_mod_cast Int.zpow_log_le_self one_lt_two hpos
  have hpow : (2 : ℚ) ^ lastPlace precision least x / 2 = 2 ^ Int.log 2 |x| / 2 ^ precision := by
    rw [hplace, zpow_sub₀ two_ne_zero, zpow_add₀ two_ne_zero, zpow_one, zpow_natCast]
    field_simp
  calc |roundFloat precision least x - x|
      ≤ 2 ^ lastPlace precision least x / 2 := abs_roundFloat_sub_le_place precision least x
    _ = 2 ^ Int.log 2 |x| / 2 ^ precision := hpow
    _ ≤ |x| / 2 ^ precision := by gcongr

theorem roundFloat_zero (precision : ℕ) (least : ℤ) : roundFloat precision least (0 : ℚ) = 0 := by
  have hzero : roundHalfEven (0 : ℚ) = 0 := by
    simp [roundHalfEven]
  rw [roundFloat, zero_div, hzero, Int.cast_zero, zero_mul]

theorem roundHalfEven_intCast (n : ℤ) : roundHalfEven (n : ℚ) = n := by
  rw [roundHalfEven, Int.fract_intCast, mul_zero, if_pos one_pos, Int.floor_intCast]

/-- A number that the format has is left as it is. -/
theorem roundFloat_eq_self {precision : ℕ} {least e : ℤ} {s : ℤ} (hs : |s| < 2 ^ precision)
    (he : least ≤ e) : roundFloat precision least (s * 2 ^ e : ℚ) = s * 2 ^ e := by
  rcases eq_or_ne s 0 with rfl | hne
  · rw [Int.cast_zero, zero_mul, roundFloat_zero]
  have hpow : (0 : ℚ) < 2 ^ e := zpow_pos two_pos e
  have habs : |(s * 2 ^ e : ℚ)| = |s| * 2 ^ e := by
    rw [abs_mul, abs_of_pos hpow, Int.cast_abs]
  have hpos : (0 : ℚ) < |s| * 2 ^ e := mul_pos (by exact_mod_cast abs_pos.mpr hne) hpow
  have hlog : Int.log 2 (|s| * 2 ^ e : ℚ) < precision + e := by
    apply (Int.lt_zpow_iff_log_lt one_lt_two hpos).mp
    rw [Nat.cast_two, zpow_add₀ two_ne_zero, zpow_natCast]
    exact mul_lt_mul_of_pos_right (by exact_mod_cast hs) hpow
  have hplace : lastPlace precision least (s * 2 ^ e : ℚ) ≤ e := by
    rw [lastPlace, habs]
    omega
  obtain ⟨n, hn⟩ := Int.eq_ofNat_of_zero_le (sub_nonneg.mpr hplace)
  have hunit : (2 : ℚ) ^ lastPlace precision least (s * 2 ^ e : ℚ) ≠ 0 := zpow_ne_zero _ two_ne_zero
  have hscaled : (s * 2 ^ e : ℚ) / 2 ^ lastPlace precision least (s * 2 ^ e : ℚ) =
      ((s * 2 ^ n : ℤ) : ℚ) := by
    rw [mul_div_assoc, ← zpow_sub₀ two_ne_zero, hn]
    push_cast
    rw [zpow_natCast]
  rw [roundFloat, hscaled, roundHalfEven_intCast, ← hscaled, div_mul_cancel₀ _ hunit]

/-! ### Two formats -/

/-- A `float` of C, by its bits. -/
structure Binary32 where
  negative : Bool
  exponent : Fin 256
  fraction : Fin (2 ^ 23)
  deriving DecidableEq

namespace Binary32

/-- Neither an infinity nor NaN. -/
def Finite (x : Binary32) : Prop := x.exponent ≠ 255

instance (x : Binary32) : Decidable x.Finite := inferInstanceAs (Decidable (_ ≠ _))

/-- The absolute value of a finite number; exponent zero marks the denormal ones. -/
def magnitude (x : Binary32) : ℚ :=
  if x.exponent = 0 then x.fraction * 2 ^ (-149 : ℤ)
  else (2 ^ 23 + x.fraction) * 2 ^ ((x.exponent : ℤ) - 150)

/-- The value of a finite number. -/
def toRat (x : Binary32) : ℚ := if x.negative then -x.magnitude else x.magnitude

theorem magnitude_nonneg (x : Binary32) : 0 ≤ x.magnitude := by
  rw [magnitude]
  split_ifs <;> positivity

theorem abs_toRat (x : Binary32) : |x.toRat| = x.magnitude := by
  rw [toRat]
  split_ifs
  · rw [abs_neg, abs_of_nonneg x.magnitude_nonneg]
  · exact abs_of_nonneg x.magnitude_nonneg

/-- A number has 24 bits, from a place on that is no place of a double. -/
theorem exists_magnitude_eq (x : Binary32) :
    ∃ (s : ℕ) (e : ℤ), x.magnitude = s * 2 ^ e ∧ s < 2 ^ 24 ∧ -149 ≤ e := by
  have hfraction := x.fraction.isLt
  rw [magnitude]
  split_ifs with hzero
  · exact ⟨x.fraction, -149, rfl, by omega, le_rfl⟩
  · have hexponent : x.exponent.val ≠ 0 := fun h => hzero (Fin.ext h)
    refine ⟨2 ^ 23 + x.fraction, x.exponent - 150, ?_, by omega, by omega⟩
    push_cast
    rfl

theorem magnitude_lt (x : Binary32) : x.magnitude < 2 ^ 129 := by
  have hfraction : (x.fraction : ℚ) < 2 ^ 23 := by exact_mod_cast x.fraction.isLt
  have hexponent : (x.exponent : ℤ) ≤ 255 := by exact_mod_cast Nat.lt_succ_iff.mp x.exponent.isLt
  rw [magnitude]
  split_ifs
  · calc (x.fraction : ℚ) * 2 ^ (-149 : ℤ) < 2 ^ 23 * 2 ^ (-149 : ℤ) := by gcongr
      _ < 2 ^ 129 := by norm_num
  · have hpow : (2 : ℚ) ^ ((x.exponent : ℤ) - 150) ≤ 2 ^ (105 : ℤ) :=
      zpow_le_zpow_right₀ one_le_two (by omega)
    calc (2 ^ 23 + (x.fraction : ℚ)) * 2 ^ ((x.exponent : ℤ) - 150)
        < (2 ^ 23 + 2 ^ 23) * 2 ^ ((x.exponent : ℤ) - 150) := by gcongr
      _ ≤ (2 ^ 23 + 2 ^ 23) * 2 ^ (105 : ℤ) := by gcongr
      _ = 2 ^ 129 := by norm_num

end Binary32

/-- A double by its value. The two zeros are one. -/
inductive Binary64
  | finite (x : ℚ)
  | inf (negative : Bool)
  | nan
  deriving DecidableEq

/-- The double nearest to a number. -/
def Binary64.ofRat (x : ℚ) : Binary64 :=
  let r := roundFloat 53 (-1074) x
  if 2 ^ 1024 ≤ |r| then .inf (decide (x < 0)) else .finite r

/-- A number of ordinary size, or zero, is held up to the precision of the format. -/
theorem Binary64.ofRat_eq_finite {x : ℚ} (hlo : x = 0 ∨ 2 ^ (-1022 : ℤ) ≤ |x|)
    (hhi : |x| ≤ 2 ^ 1022) :
    Binary64.ofRat x = .finite (roundFloat 53 (-1074) x) ∧
      |roundFloat 53 (-1074) x - x| ≤ |x| / 2 ^ 53 := by
  have herror : |roundFloat 53 (-1074) x - x| ≤ |x| / 2 ^ 53 := by
    rcases hlo with rfl | hlo
    · rw [roundFloat_zero, sub_zero, abs_zero, zero_div]
    · exact abs_roundFloat_sub_le (by simpa using hlo)
  have hnonneg : (0 : ℚ) ≤ |x| := abs_nonneg x
  have hsmall : |roundFloat 53 (-1074) x| < 2 ^ 1024 :=
    calc |roundFloat 53 (-1074) x|
        = |(roundFloat 53 (-1074) x - x) + x| := by rw [sub_add_cancel]
      _ ≤ |roundFloat 53 (-1074) x - x| + |x| := abs_add_le _ _
      _ ≤ |x| / 2 ^ 53 + |x| := by gcongr
      _ ≤ |x| + |x| := by
        gcongr
        exact div_le_self hnonneg (one_le_pow₀ one_le_two)
      _ ≤ 2 ^ 1022 + 2 ^ 1022 := by gcongr
      _ = 2 ^ 1023 := by rw [← two_mul, ← pow_succ']
      _ < 2 ^ 1024 := pow_lt_pow_right₀ one_lt_two (by decide)
  exact ⟨if_neg (not_le.mpr hsmall), herror⟩

end NuedcFirmware.Lib
