import NuedcFirmware.Lib.CFloat
import NuedcFirmware.Lib.Rounding

/-!
What rounded arithmetic keeps about whole numbers.

A `float` holds every whole number of up to 24 bits, so sums, products and quotients of such
numbers that come out whole are exact, and the operations are monotone however they round.
That is enough to carry a bound or an order through a formula without a word about its
rounding errors. `CFloat.Whole` lists these laws. Exact arithmetic satisfies them
(`CFloat.Whole.ofField`), and so does arithmetic that rounds to the nearest after every
operation (`CFloat.Whole.ofSingle`), for which rounding is shown monotone first
(`roundFloat_mono`). `CFloat.WholeOrder` adds that the comparisons decide, which leaves out
NaN.
-/

namespace NuedcFirmware.Lib

/-- The number has at most 24 bits. -/
def Exact (n : ℤ) : Prop := |n| < 2 ^ 24

theorem exact_of_mem {n : ℤ} (hlo : -2 ^ 24 < n) (hhi : n < 2 ^ 24) : Exact n :=
  abs_lt.mpr ⟨hlo, hhi⟩

/-- Whole numbers are exact, and the operations with them are monotone. -/
class CFloat.Whole (F : Type*) [CFloat F] : Prop where
  le_trans {a b c : F} : a ≤ b → b ≤ c → a ≤ c
  intCast_le {m n : ℤ} : m ≤ n → (m : F) ≤ (n : F)
  one : (1.0 : F) = ((1 : ℤ) : F)
  add_comm {a b : F} : a + b = b + a
  intCast_add {m n : ℤ} : Exact m → Exact n → Exact (m + n) → (m : F) + n = ((m + n : ℤ) : F)
  intCast_mul {m n : ℤ} : Exact m → Exact n → Exact (m * n) → (m : F) * n = ((m * n : ℤ) : F)
  intCast_mul_div {m n : ℤ} : 0 < n → Exact n → Exact (m * n) →
    ((m * n : ℤ) : F) / (n : F) = (m : F)
  zero_mul {a : F} {n : ℤ} : ((0 : ℤ) : F) ≤ a → a ≤ n → Exact n →
    ((0 : ℤ) : F) * a = ((0 : ℤ) : F)
  add_le_add {a b : F} {n : ℤ} : Exact n → a ≤ b → (n : F) + a ≤ n + b
  mul_le_mul {a b : F} {n : ℤ} : 0 < n → Exact n → a ≤ b → (n : F) * a ≤ n * b
  div_le_div {a b : F} {n : ℤ} : 0 < n → Exact n → a ≤ b → a / (n : F) ≤ b / n
  truncate_intCast {n : ℤ} : Exact n → truncate (n : F) = n
  truncate_le {a b : F} {m n : ℤ} : (m : F) ≤ a → a ≤ b → b ≤ n → Exact m → Exact n →
    truncate a ≤ truncate b

namespace CFloat.Whole

variable {F : Type*} [CFloat F] [CFloat.Whole F] {a : F} {m n : ℤ}

/-- Bounds by whole numbers are bounds of the truncated value. -/
theorem truncate_mem (hm : Exact m) (hn : Exact n) (hlo : (m : F) ≤ a) (hhi : a ≤ n) :
    m ≤ truncate a ∧ truncate a ≤ n := by
  have hrefl : ∀ k : ℤ, (k : F) ≤ k := fun k => intCast_le (Int.le_refl k)
  constructor
  · calc m = truncate (m : F) := (truncate_intCast hm).symm
      _ ≤ truncate a := truncate_le (hrefl m) hlo hhi hm hn
  · calc truncate a ≤ truncate (n : F) := truncate_le hlo hhi (hrefl n) hm hn
      _ = n := truncate_intCast hn

end CFloat.Whole

/-- Also, the comparisons decide, a change of sign turns them round, and a decimal constant
that is a whole number is one. There is no NaN in such arithmetic. -/
class CFloat.WholeOrder (F : Type*) [CFloat F] : Prop extends CFloat.Whole F where
  not_lt_iff {a b : F} : ¬ a < b ↔ b ≤ a
  le_of_lt {a b : F} : a < b → a ≤ b
  nonneg_neg {a : F} : a ≤ ((0 : ℤ) : F) → ((0 : ℤ) : F) ≤ -a
  decimal_eq {n : ℕ} : Exact n →
    (OfScientific.ofScientific (10 * n) true 1 : F) = ((n : ℤ) : F)

/-! ### Exact arithmetic -/

theorem truncate_mono {K : Type*} [Field K] [LinearOrder K] [IsStrictOrderedRing K] [FloorRing K]
    {a b : K} (h : a ≤ b) : truncate a ≤ truncate b := by
  show (if 0 ≤ a then ⌊a⌋ else ⌈a⌉) ≤ if 0 ≤ b then ⌊b⌋ else ⌈b⌉
  by_cases ha : 0 ≤ a
  · rw [if_pos ha, if_pos (ha.trans h)]
    exact Int.floor_le_floor h
  · rw [if_neg ha]
    by_cases hb : 0 ≤ b
    · rw [if_pos hb]
      have hneg : ⌈a⌉ ≤ 0 := Int.ceil_le.mpr (by simpa using (not_le.mp ha).le)
      exact hneg.trans (Int.floor_nonneg.mpr hb)
    · rw [if_neg hb]
      exact Int.ceil_le_ceil h

theorem truncate_intCast {K : Type*} [Field K] [LinearOrder K] [IsStrictOrderedRing K]
    [FloorRing K] (n : ℤ) : truncate (n : K) = n := by
  show (if 0 ≤ (n : K) then ⌊(n : K)⌋ else ⌈(n : K)⌉) = n
  rw [Int.floor_intCast, Int.ceil_intCast, ite_self]

/-- The truncated quotient of whole numbers. -/
theorem truncate_intCast_div {K : Type*} [Field K] [LinearOrder K] [IsStrictOrderedRing K]
    [FloorRing K] (m : ℤ) {n : ℤ} (hn : 0 < n) : truncate ((m : K) / n) = m.tdiv n := by
  have hpos : (0 : K) < n := by exact_mod_cast hn
  show (if 0 ≤ (m : K) / n then ⌊(m : K) / n⌋ else ⌈(m : K) / n⌉) = m.tdiv n
  by_cases hm : 0 ≤ m
  · have hnonneg : (0 : K) ≤ (m : K) / n := div_nonneg (by exact_mod_cast hm) hpos.le
    rw [if_pos hnonneg, Int.floor_div_cast_of_nonneg hn.le, Int.floor_intCast,
      Int.tdiv_eq_ediv_of_nonneg hm]
  · have hneg : ¬ (0 : K) ≤ (m : K) / n := by
      rw [not_le]
      exact div_neg_of_neg_of_pos (by exact_mod_cast not_le.mp hm) hpos
    have hopposite : (m : K) / n = -(((-m : ℤ) : K) / n) := by
      push_cast
      ring
    rw [if_neg hneg, hopposite, Int.ceil_neg, Int.floor_div_cast_of_nonneg hn.le, Int.floor_intCast,
      ← Int.tdiv_eq_ediv_of_nonneg (by omega), Int.neg_tdiv, neg_neg]

instance CFloat.Whole.ofField {K : Type*} [Field K] [LinearOrder K] [IsStrictOrderedRing K]
    [FloorRing K] : CFloat.Whole K where
  le_trans := LE.le.trans
  intCast_le h := by exact_mod_cast h
  one := by norm_num
  add_comm := AddCommMagma.add_comm _ _
  intCast_add _ _ _ := by push_cast; rfl
  intCast_mul _ _ _ := by push_cast; rfl
  intCast_mul_div {m n} hn _ _ := by
    have hne : (n : K) ≠ 0 := by exact_mod_cast hn.ne'
    rw [Int.cast_mul, mul_div_cancel_right₀ _ hne]
  zero_mul _ _ _ := by rw [Int.cast_zero, MulZeroClass.zero_mul]
  add_le_add _ h := add_le_add_right h _
  mul_le_mul {a b n} hn _ h := by
    have hpos : (0 : K) < n := by exact_mod_cast hn
    exact mul_le_mul_of_nonneg_left h hpos.le
  div_le_div {a b n} hn _ h := by
    have hpos : (0 : K) < n := by exact_mod_cast hn
    exact div_le_div_of_nonneg_right h hpos.le
  truncate_intCast _ := Lib.truncate_intCast _
  truncate_le _ h _ _ _ := truncate_mono h

theorem ofScientific_ten_mul {K : Type*} [Field K] [LinearOrder K] [IsStrictOrderedRing K]
    (n : ℕ) : (OfScientific.ofScientific (10 * n) true 1 : K) = ((n : ℤ) : K) := by
  have hq : ((NNRat.divNat (10 * n) (10 ^ 1) : ℚ≥0) : K) = (n : K) := by
    rw [NNRat.divNat_eq_div]
    push_cast
    ring
  rw [NNRatCast.ofScientific_eq_ite, if_pos rfl, hq, Int.cast_natCast]

instance CFloat.WholeOrder.ofField {K : Type*} [Field K] [LinearOrder K] [IsStrictOrderedRing K]
    [FloorRing K] : CFloat.WholeOrder K where
  not_lt_iff := not_lt
  le_of_lt := LT.lt.le
  nonneg_neg {a} h := by
    rw [Int.cast_zero] at h ⊢
    exact neg_nonneg.mpr h
  decimal_eq _ := ofScientific_ten_mul _

/-! ### Rounding is monotone -/

theorem roundHalfEven_mono {x y : ℚ} (h : x ≤ y) : roundHalfEven x ≤ roundHalfEven y := by
  have hx := abs_le.mp (abs_roundHalfEven_sub_le x)
  have hy := abs_le.mp (abs_roundHalfEven_sub_le y)
  by_contra hlt
  have hstep : (roundHalfEven y : ℚ) + 1 ≤ roundHalfEven x := by
    exact_mod_cast not_le.mp hlt
  -- both are half a unit off, so that the two numbers are one
  have heq : x = y := by linarith
  rw [heq] at hlt
  exact hlt le_rfl

section Place

variable {precision : ℕ} {least : ℤ} {x : ℚ} {k e : ℤ} (he : lastPlace precision least x ≤ e)
include he

/-- A multiple of a place that is no finer than the last one. -/
theorem exists_eq_mul_lastPlace :
    ∃ j : ℤ, (k * 2 ^ e : ℚ) / 2 ^ lastPlace precision least x = j := by
  obtain ⟨n, hn⟩ := Int.eq_ofNat_of_zero_le (sub_nonneg.mpr he)
  refine ⟨k * 2 ^ n, ?_⟩
  rw [mul_div_assoc, ← zpow_sub₀ two_ne_zero, hn]
  push_cast
  rw [zpow_natCast]

/-- Rounding does not cross a multiple of such a place. -/
theorem le_roundFloat (h : k * 2 ^ e ≤ x) : k * 2 ^ e ≤ roundFloat precision least x := by
  have hpos : (0 : ℚ) < 2 ^ lastPlace precision least x := zpow_pos two_pos _
  obtain ⟨j, hj⟩ := exists_eq_mul_lastPlace (k := k) he
  have hle : (j : ℚ) ≤ x / 2 ^ lastPlace precision least x := by
    rw [← hj]
    gcongr
  have hround := roundHalfEven_mono hle
  rw [roundHalfEven_intCast] at hround
  rw [roundFloat, ← div_le_iff₀ hpos, hj]
  exact_mod_cast hround

theorem roundFloat_le (h : x ≤ k * 2 ^ e) : roundFloat precision least x ≤ k * 2 ^ e := by
  have hpos : (0 : ℚ) < 2 ^ lastPlace precision least x := zpow_pos two_pos _
  obtain ⟨j, hj⟩ := exists_eq_mul_lastPlace (k := k) he
  have hle : x / 2 ^ lastPlace precision least x ≤ j := by
    rw [← hj]
    gcongr
  have hround := roundHalfEven_mono hle
  rw [roundHalfEven_intCast] at hround
  rw [roundFloat, ← le_div_iff₀ hpos, hj]
  exact_mod_cast hround

end Place

/-- A number other than zero with a coarser last place is farther away from zero, with a
power of two in between. -/
theorem abs_lt_of_lastPlace_lt {precision : ℕ} {least : ℤ} {x y : ℚ} (hy : y ≠ 0)
    (h : lastPlace precision least x < lastPlace precision least y) :
    |x| < 2 ^ (lastPlace precision least y + precision - 1) ∧
      2 ^ (lastPlace precision least y + precision - 1) ≤ |y| := by
  have hplace : lastPlace precision least y + precision - 1 = Int.log 2 |y| := by
    rw [lastPlace, lastPlace] at *
    omega
  have hfiner : Int.log 2 |x| + 1 ≤ Int.log 2 |y| := by
    rw [lastPlace, lastPlace] at *
    omega
  rw [hplace]
  constructor
  · calc |x| < 2 ^ (Int.log 2 |x| + 1) := by
          exact_mod_cast Int.lt_zpow_succ_log_self one_lt_two |x|
      _ ≤ 2 ^ Int.log 2 |y| := zpow_le_zpow_right₀ one_le_two hfiner
  · exact_mod_cast Int.zpow_log_le_self one_lt_two (abs_pos.mpr hy)

/-- Rounding to the nearest is monotone. -/
theorem roundFloat_mono {precision : ℕ} (hprecision : 0 < precision) (least : ℤ) {x y : ℚ}
    (h : x ≤ y) :
    roundFloat precision least x ≤ roundFloat precision least y := by
  rcases eq_or_ne x 0 with rfl | hx
  · have hround := le_roundFloat (k := 0) (e := lastPlace precision least y) le_rfl (by simpa using h)
    rw [roundFloat_zero]
    simpa using hround
  rcases eq_or_ne y 0 with rfl | hy
  · have hround := roundFloat_le (k := 0) (e := lastPlace precision least x) le_rfl (by simpa using h)
    rw [roundFloat_zero]
    simpa using hround
  rcases lt_trichotomy (lastPlace precision least x) (lastPlace precision least y) with
    hfiner | hsame | hcoarser
  · obtain ⟨hlt, hle⟩ := abs_lt_of_lastPlace_lt hy hfiner
    generalize hbetween : lastPlace precision least y + precision - 1 = e at hlt hle
    obtain ⟨-, hbelow⟩ := abs_lt.mp hlt
    have habove : 2 ^ e ≤ y := by
      rcases le_abs.mp hle with hpos | hneg
      · exact hpos
      · linarith [(abs_lt.mp hlt).1]
    calc roundFloat precision least x ≤ (1 : ℤ) * 2 ^ e :=
          roundFloat_le (by omega) (by simpa using hbelow.le)
      _ ≤ roundFloat precision least y := le_roundFloat (by omega) (by simpa using habove)
  · have hpos : (0 : ℚ) < 2 ^ lastPlace precision least y := zpow_pos two_pos _
    have hscaled : x / 2 ^ lastPlace precision least y ≤ y / 2 ^ lastPlace precision least y := by
      gcongr
    rw [roundFloat, roundFloat, hsame]
    gcongr
    exact roundHalfEven_mono hscaled
  · obtain ⟨hlt, hle⟩ := abs_lt_of_lastPlace_lt hx hcoarser
    generalize hbetween : lastPlace precision least x + precision - 1 = e at hlt hle
    obtain ⟨habove, -⟩ := abs_lt.mp hlt
    have hbelow : x ≤ -2 ^ e := by
      rcases le_abs.mp hle with hpos | hneg
      · linarith [(abs_lt.mp hlt).2]
      · linarith
    calc roundFloat precision least x ≤ (-1 : ℤ) * 2 ^ e :=
          roundFloat_le (by omega) (by simpa using hbelow)
      _ ≤ roundFloat precision least y := le_roundFloat (by omega) (by simpa using habove.le)

/-! ### Arithmetic that rounds -/

/-- A number of single precision, by its value. There is no largest one here, and no NaN. -/
structure Single where
  value : ℚ

namespace Single

/-- The nearest number of 24 bits. -/
def round (x : ℚ) : Single := ⟨roundFloat 24 (-149) x⟩

/-- Every operation rounds the exact result. -/
instance : CFloat Single where
  add x y := round (x.value + y.value)
  sub x y := round (x.value - y.value)
  mul x y := round (x.value * y.value)
  div x y := round (x.value / y.value)
  neg x := ⟨-x.value⟩
  lt x y := x.value < y.value
  le x y := x.value ≤ y.value
  intCast n := round n
  ofScientific m s e := round (OfScientific.ofScientific m s e)
  decLt x y := inferInstanceAs (Decidable (x.value < y.value))
  decLe x y := inferInstanceAs (Decidable (x.value ≤ y.value))
  fabsf x := ⟨|x.value|⟩
  fmaxf x y := ⟨max x.value y.value⟩
  truncate x := truncate x.value

theorem round_mono {x y : ℚ} (h : x ≤ y) : round x ≤ round y :=
  roundFloat_mono (by norm_num) (-149) h

theorem value_intCast {n : ℤ} (h : Exact n) : (n : Single).value = n := by
  have hround := @roundFloat_eq_self 24 (-149) 0 n h (by norm_num)
  rw [zpow_zero, mul_one] at hround
  exact hround

end Single

instance CFloat.Whole.ofSingle : CFloat.Whole Single where
  le_trans h h' := Rat.le_trans h h'
  intCast_le h := Single.round_mono (by exact_mod_cast h)
  one := by
    show Single.round (OfScientific.ofScientific 10 true 1) = Single.round ((1 : ℤ) : ℚ)
    norm_num
  add_comm {a b} := congrArg Single.round (Rat.add_comm a.value b.value)
  intCast_add {m n} hm hn _ := by
    show Single.round ((m : Single).value + (n : Single).value) = Single.round ((m + n : ℤ) : ℚ)
    rw [Single.value_intCast hm, Single.value_intCast hn, Int.cast_add]
  intCast_mul {m n} hm hn _ := by
    show Single.round ((m : Single).value * (n : Single).value) = Single.round ((m * n : ℤ) : ℚ)
    rw [Single.value_intCast hm, Single.value_intCast hn, Int.cast_mul]
  intCast_mul_div {m n} hpos hn hmn := by
    have hne : (n : ℚ) ≠ 0 := by exact_mod_cast hpos.ne'
    show Single.round (((m * n : ℤ) : Single).value / (n : Single).value) = Single.round (m : ℚ)
    rw [Single.value_intCast hmn, Single.value_intCast hn, Int.cast_mul,
      mul_div_cancel_right₀ _ hne]
  zero_mul {a n} _ _ _ := by
    show Single.round (((0 : ℤ) : Single).value * a.value) = Single.round ((0 : ℤ) : ℚ)
    rw [Single.value_intCast (exact_of_mem (by decide) (by decide)), Int.cast_zero,
      MulZeroClass.zero_mul]
  add_le_add {a b n} _ h := Single.round_mono (add_le_add_right (show a.value ≤ b.value from h) _)
  mul_le_mul {a b n} hpos hn h := by
    have hnonneg : 0 ≤ (n : Single).value := by
      rw [Single.value_intCast hn]
      exact_mod_cast hpos.le
    exact Single.round_mono (mul_le_mul_of_nonneg_left h hnonneg)
  div_le_div {a b n} hpos hn h := by
    have hnonneg : 0 ≤ (n : Single).value := by
      rw [Single.value_intCast hn]
      exact_mod_cast hpos.le
    exact Single.round_mono (div_le_div_of_nonneg_right h hnonneg)
  truncate_intCast {n} hn := by
    show truncate (n : Single).value = n
    rw [Single.value_intCast hn, Lib.truncate_intCast]
  truncate_le _ h _ _ _ := truncate_mono h

instance CFloat.WholeOrder.ofSingle : CFloat.WholeOrder Single where
  not_lt_iff := Rat.not_lt
  le_of_lt h := Rat.le_of_lt h
  nonneg_neg {a} h := by
    have hzero : ((0 : ℤ) : Single).value = 0 :=
      Single.value_intCast (exact_of_mem (by decide) (by decide))
    have hvalue : a.value ≤ 0 := by
      rw [← hzero]
      exact h
    show ((0 : ℤ) : Single).value ≤ -a.value
    rw [hzero]
    exact neg_nonneg.mpr hvalue
  decimal_eq {n} _ := by
    show Single.round (OfScientific.ofScientific (10 * n) true 1) = Single.round ((n : ℤ) : ℚ)
    rw [ofScientific_ten_mul]

instance CFloat.Zero.ofSingle : CFloat.Zero Single where
  zero_mul_congr a b := by
    have hzero : (0.0 : Single).value = 0 := by decide +kernel
    show Single.round ((0.0 : Single).value * a.value) =
      Single.round ((0.0 : Single).value * b.value)
    rw [hzero, MulZeroClass.zero_mul, MulZeroClass.zero_mul]
  zero_sub_zero := by
    have hzero : (0.0 : Single).value = 0 := by decide +kernel
    show Single.round ((0.0 : Single).value - (0.0 : Single).value) = (0.0 : Single)
    rw [hzero]
    show Single.round ((0 : ℚ) - 0) = Single.round (OfScientific.ofScientific 0 true 1)
    norm_num

end NuedcFirmware.Lib
