import Mathlib.Algebra.Order.Floor.Ring
import Mathlib.Analysis.SpecialFunctions.Complex.Arg
import Mathlib.Analysis.SpecialFunctions.Trigonometric.Inverse
import Mathlib.Data.Rat.Floor
import Mathlib.Tactic.NormNum

/-!
The arithmetic a C program does on `float`.

A translated function is written once, over any type `F` with the operations of
`CFloat`. No law is part of the class, so what is proved for every `F` holds of
the rounded arithmetic of the target, NaN included. Three instantiations matter:

* the class alone, for facts that do not depend on the numbers;
* `CFloat.Ordered` and `CFloat.Zero`, the few laws of the order and of a factor 0
  that rounding keeps;
* a linearly ordered field, which is exact arithmetic (`CFloat.ofField`), and
  with the functions of `libm` the real numbers (`CMath.real`).
-/

namespace NuedcFirmware.Lib

/-- The operations of C on `float`: arithmetic, the two comparisons a program
can branch on, conversion from the integers, decimal constants, `fabsf` and
`fmaxf`, and the conversion to an integer, which drops the fraction. -/
class CFloat (F : Type*) extends Add F, Sub F, Mul F, Div F, Neg F, LT F, LE F,
    IntCast F, OfScientific F where
  decLt : DecidableLT F
  decLe : DecidableLE F
  fabsf : F → F
  fmaxf : F → F → F
  truncate : F → Int

attribute [reducible, instance] CFloat.decLt CFloat.decLe

export CFloat (fabsf fmaxf truncate)

/-- The functions of `libm` next to the arithmetic. -/
class CMath (F : Type*) extends CFloat F where
  sqrtf : F → F
  sinf : F → F
  cosf : F → F
  asinf : F → F
  atan2f : F → F → F

export CMath (sqrtf sinf cosf asinf atan2f)

/-- What comparisons keep under rounding: they chain, and a positive decimal
constant that is no denormal is positive. -/
class CFloat.Ordered (F : Type*) [CFloat F] : Prop where
  lt_of_lt_of_le {a b c : F} : a < b → b ≤ c → a < c
  zero_lt_ofScientific {m e : ℕ} : 0 < m → e ≤ 6 →
    (0.0 : F) < OfScientific.ofScientific m true e

/-- A factor 0 hides the other one, and nothing is left of 0 minus 0. -/
class CFloat.Zero (F : Type*) [CFloat F] : Prop where
  zero_mul_congr (a b : F) : (0.0 : F) * a = 0.0 * b
  zero_sub_zero : (0.0 : F) - 0.0 = 0.0

/-- Exact arithmetic: the operations of an ordered field. -/
instance CFloat.ofField {K : Type*} [Field K] [LinearOrder K] [FloorRing K] :
    CFloat K where
  decLt := inferInstance
  decLe := inferInstance
  fabsf x := |x|
  fmaxf := max
  truncate x := if 0 ≤ x then ⌊x⌋ else ⌈x⌉

instance CFloat.Ordered.ofField {K : Type*} [Field K] [LinearOrder K]
    [IsStrictOrderedRing K] [FloorRing K] : CFloat.Ordered K where
  lt_of_lt_of_le := LT.lt.trans_le
  zero_lt_ofScientific {m e} hm _ := by
    have hq : ((NNRat.divNat m (10 ^ e) : ℚ≥0) : K) = (m : K) / 10 ^ e := by
      rw [NNRat.divNat_eq_div]; push_cast; rfl
    have hscientific : (OfScientific.ofScientific m true e : K) = (m : K) / 10 ^ e := by
      rw [NNRatCast.ofScientific_eq_ite, if_pos rfl, hq]
    rw [hscientific]
    have : (0 : K) < m := by exact_mod_cast hm
    norm_num
    positivity

instance CFloat.Zero.ofField {K : Type*} [Field K] [LinearOrder K] [IsStrictOrderedRing K]
    [FloorRing K] : CFloat.Zero K where
  zero_mul_congr a b := by
    have hzero : (0.0 : K) = 0 := by norm_num
    rw [hzero, zero_mul, zero_mul]
  zero_sub_zero := by
    have hzero : (0.0 : K) = 0 := by norm_num
    rw [hzero, sub_zero]

noncomputable instance CMath.real : CMath ℝ where
  sqrtf := Real.sqrt
  sinf := Real.sin
  cosf := Real.cos
  asinf := Real.arcsin
  atan2f y x := Complex.arg ⟨x, y⟩

end NuedcFirmware.Lib
