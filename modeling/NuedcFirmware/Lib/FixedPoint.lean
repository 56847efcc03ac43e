import NuedcFirmware.Lib.Rounding
import Mathlib.Tactic.FieldSimp
import Mathlib.Tactic.LinearCombination

/-!
Numbers as `printf` writes them: `%u` in digits, and `%.3f` and its like as a sign, the digits
of the integer part, a point and a fixed number of decimals. The decimals are those of the
nearest number that can be written so, ties to even.

`printedUnits` counts the last decimals of what is printed, and `printedValue` is the number it
stands for. The double nearest to that is still at most half a unit of the last decimal away from
the number, where this is not halfway between two decimals
(`abs_roundFloat_printedValue_sub_le`).
-/

namespace NuedcFirmware.Lib

/-- `%u` and `%lu`. -/
def printUnsigned (n : ℕ) : List Char := Nat.toDigits 10 n

/-- The last `width` digits of a number, with the zeros it begins with. -/
def printPadded (width n : ℕ) : List Char :=
  List.replicate (width - (Nat.toDigits 10 n).length) '0' ++ Nat.toDigits 10 n

/-- A number of units of the last of some decimals. -/
def printUnits (decimals units : ℕ) : List Char :=
  Nat.toDigits 10 (units / 10 ^ decimals) ++ '.' :: printPadded decimals (units % 10 ^ decimals)

/-- The units of the last decimal nearest to the absolute value of a number. -/
def printedUnits (decimals : ℕ) (x : Binary32) : ℕ :=
  (roundHalfEven (x.magnitude * 10 ^ decimals)).toNat

/-- `%.3f`, with a positive number of decimals in the place of 3. -/
def printFixed (decimals : ℕ) (x : Binary32) : List Char :=
  (if x.negative then ['-'] else []) ++
    if x.Finite then printUnits decimals (printedUnits decimals x)
    else if x.fraction.val = 0 then ['i', 'n', 'f'] else ['n', 'a', 'n']

/-- The number that is printed. -/
def printedValue (decimals : ℕ) (x : Binary32) : ℚ :=
  (if x.negative then -1 else 1) * (printedUnits decimals x / 10 ^ decimals)

example : printFixed 3 ⟨true, 127, 1⟩ = "-1.000".toList := by decide +kernel
example : printFixed 4 ⟨false, 123, 0⟩ = "0.0625".toList := by decide +kernel

/-! ### What is printed -/

section Value

variable (decimals : ℕ) (x : Binary32)

theorem abs_printedUnits_sub_le :
    |(printedUnits decimals x : ℚ) - x.magnitude * 10 ^ decimals| ≤ 1 / 2 := by
  have hscaled : 0 ≤ x.magnitude * 10 ^ decimals := mul_nonneg x.magnitude_nonneg (by positivity)
  have hunits : ((printedUnits decimals x : ℤ) : ℚ) =
      (roundHalfEven (x.magnitude * 10 ^ decimals) : ℤ) := by
    rw [printedUnits, Int.toNat_of_nonneg (roundHalfEven_nonneg hscaled)]
  rw [← Int.cast_natCast, hunits]
  exact abs_roundHalfEven_sub_le _

theorem ten_pow_eq : (10 : ℚ) ^ decimals = 2 ^ decimals * 5 ^ decimals := by
  rw [← mul_pow]
  norm_num

theorem abs_sign_eq_one : |(if x.negative then -1 else 1 : ℚ)| = 1 := by
  split_ifs <;> norm_num

theorem abs_printedValue_sub :
    |printedValue decimals x - x.toRat| =
      |(printedUnits decimals x : ℚ) - x.magnitude * 10 ^ decimals| / 10 ^ decimals := by
  have hpow : (0 : ℚ) < 10 ^ decimals := by positivity
  have hsign : printedValue decimals x - x.toRat = (if x.negative then -1 else 1) *
      (printedUnits decimals x / 10 ^ decimals - x.magnitude) := by
    rw [printedValue, Binary32.toRat]
    split_ifs <;> ring
  rw [hsign, abs_mul, abs_sign_eq_one, one_mul, ← abs_of_pos hpow, ← abs_div, abs_of_pos hpow,
    sub_div, mul_div_cancel_right₀ _ hpow.ne']

theorem abs_printedValue :
    |printedValue decimals x| = printedUnits decimals x / 10 ^ decimals := by
  rw [printedValue, abs_mul, abs_sign_eq_one, one_mul, abs_of_nonneg (by positivity)]

theorem exists_eq_printedValue : ∃ n : ℤ, (n : ℚ) / 10 ^ decimals = printedValue decimals x := by
  rw [printedValue]
  cases x.negative with
  | true =>
      refine ⟨-printedUnits decimals x, ?_⟩
      rw [if_pos rfl, Int.cast_neg, Int.cast_natCast, neg_div, neg_one_mul]
  | false =>
      refine ⟨printedUnits decimals x, ?_⟩
      rw [if_neg Bool.false_ne_true, Int.cast_natCast, one_mul]

/-- A number below a bound is printed with at most as many units. -/
theorem printedUnits_le {bound : ℕ} (h : x.magnitude ≤ bound) :
    printedUnits decimals x ≤ bound * 10 ^ decimals := by
  have herror := (abs_le.mp (abs_printedUnits_sub_le decimals x)).2
  have hscaled : x.magnitude * 10 ^ decimals ≤ bound * 10 ^ decimals := by gcongr
  have hlt : (printedUnits decimals x : ℚ) < bound * 10 ^ decimals + 1 := by linarith
  have : printedUnits decimals x < bound * 10 ^ decimals + 1 := by exact_mod_cast hlt
  omega

/-- A number that is not halfway between two decimals is printed as it is, or leaves a distance
to the middle that comes from its own places. -/
theorem abs_printedUnits_sub_cases {x : Binary32} {s : ℕ} {e : ℤ} (hx : x.magnitude = s * 2 ^ e) :
    |(printedUnits decimals x : ℚ) - x.magnitude * 10 ^ decimals| = 1 / 2 ∨
      (printedUnits decimals x : ℚ) = x.magnitude * 10 ^ decimals ∨
      |(printedUnits decimals x : ℚ) - x.magnitude * 10 ^ decimals| ≤
        1 / 2 - 2 ^ (e + decimals) := by
  have herror := abs_printedUnits_sub_le decimals x
  generalize printedUnits decimals x = u at herror ⊢
  generalize hδ : (u : ℚ) - x.magnitude * 10 ^ decimals = δ at herror ⊢
  obtain ⟨n, t, hnt, hcase⟩ : ∃ n t : ℕ, e + decimals + ((t + 1 : ℕ) : ℤ) = n ∧ (t = 0 ∨ n = 0) :=
    ⟨(e + decimals + 1).toNat, (-(e + decimals + 1)).toNat, by omega, by omega⟩
  have hpow : (0 : ℚ) < 2 ^ (t + 1) := by positivity
  -- scaled up, the distance is an integer
  obtain ⟨z, hz⟩ : ∃ z : ℤ, δ * 2 ^ (t + 1) = z := by
    have hplaces : (2 : ℚ) ^ e * 2 ^ decimals * 2 ^ (t + 1) = 2 ^ n := by
      rw [← zpow_natCast 2 decimals, ← zpow_natCast 2 (t + 1), ← zpow_add₀ two_ne_zero,
        ← zpow_add₀ two_ne_zero, hnt, zpow_natCast]
    refine ⟨u * 2 ^ (t + 1) - s * 5 ^ decimals * 2 ^ n, ?_⟩
    push_cast
    rw [← hδ, hx, ten_pow_eq]
    linear_combination (-(s : ℚ) * 5 ^ decimals) * hplaces
  have habs : |δ| = (|z| : ℤ) / 2 ^ (t + 1) := by
    rw [Int.cast_abs, ← hz, abs_mul, abs_of_pos hpow, mul_div_cancel_right₀ _ hpow.ne']
  have hz_le : |z| ≤ 2 ^ t := by
    rw [habs, div_le_iff₀ hpow, pow_succ] at herror
    have : ((|z| : ℤ) : ℚ) ≤ 2 ^ t := by linarith
    exact_mod_cast this
  rcases hz_le.eq_or_lt with heq | hlt
  · left
    rw [habs, heq, pow_succ]
    push_cast
    field_simp
  · right
    rcases hcase with rfl | rfl
    · left
      have hzero : |z| = 0 := by
        have hnonneg := abs_nonneg z
        omega
      rw [hzero, Int.cast_zero, zero_div, abs_eq_zero] at habs
      linarith
    · right
      have hexponent : e + decimals = -((t + 1 : ℕ) : ℤ) := by omega
      have hbelow : |z| ≤ 2 ^ t - 1 := by omega
      have hle : ((|z| : ℤ) : ℚ) ≤ 2 ^ t - 1 := by exact_mod_cast hbelow
      rw [hexponent, zpow_neg, zpow_natCast, habs]
      calc (|z| : ℤ) / (2 : ℚ) ^ (t + 1) ≤ (2 ^ t - 1) / 2 ^ (t + 1) := by gcongr
        _ = 1 / 2 - (2 ^ (t + 1))⁻¹ := by
          rw [pow_succ]
          field_simp

/-- A `float` is printed as a number that the doubles hold up to their precision. -/
theorem ofRat_printedValue_eq (h : decimals ≤ 255) :
    Binary64.ofRat (printedValue decimals x) =
        .finite (roundFloat 53 (-1074) (printedValue decimals x)) ∧
      |roundFloat 53 (-1074) (printedValue decimals x) - printedValue decimals x| ≤
        |printedValue decimals x| / 2 ^ 53 := by
  have hpow : (0 : ℚ) < 10 ^ decimals := by positivity
  have hten : (10 : ℚ) ^ decimals ≤ 2 ^ 1022 := by
    calc (10 : ℚ) ^ decimals ≤ (2 ^ 4) ^ decimals := by gcongr; norm_num
      _ = 2 ^ (4 * decimals) := (pow_mul 2 4 decimals).symm
      _ ≤ 2 ^ 1022 := pow_le_pow_right₀ one_le_two (by omega)
  apply Binary64.ofRat_eq_finite
  · rw [← abs_eq_zero, abs_printedValue]
    rcases Nat.eq_zero_or_pos (printedUnits decimals x) with hzero | hunits
    · exact Or.inl (by rw [hzero, Nat.cast_zero, zero_div])
    · right
      have hone : (1 : ℚ) ≤ printedUnits decimals x := by exact_mod_cast hunits
      calc (2 : ℚ) ^ (-1022 : ℤ) = 1 / 2 ^ 1022 := by
            rw [one_div, ← zpow_natCast, ← zpow_neg, Nat.cast_ofNat]
        _ ≤ 1 / 10 ^ decimals := one_div_le_one_div_of_le hpow hten
        _ ≤ printedUnits decimals x / 10 ^ decimals := by gcongr
  · rw [abs_printedValue, div_le_iff₀ hpow]
    have hunits : (printedUnits decimals x : ℚ) ≤ 2 ^ 129 * 10 ^ decimals := by
      exact_mod_cast @printedUnits_le decimals x (2 ^ 129) (by exact_mod_cast x.magnitude_lt.le)
    calc (printedUnits decimals x : ℚ) ≤ 2 ^ 129 * 10 ^ decimals := hunits
      _ ≤ 2 ^ 1022 * 10 ^ decimals :=
        mul_le_mul_of_nonneg_right (pow_le_pow_right₀ one_le_two (by decide)) hpow.le

/-- What is printed takes no more bits than a double has. -/
theorem printedUnits_le_of_magnitude_eq (h : decimals ≤ 12) {x : Binary32} {s : ℕ} {e : ℤ}
    (hx : x.magnitude = s * 2 ^ e) (hs : s < 2 ^ 24) :
    (printedUnits decimals x : ℚ) ≤ 2 ^ (e + decimals) * 2 ^ 53 := by
  have herror := (abs_le.mp (abs_printedUnits_sub_le decimals x)).2
  rcases Nat.eq_zero_or_pos (printedUnits decimals x) with hzero | hunits
  · rw [hzero, Nat.cast_zero]
    positivity
  · have hone : (1 : ℚ) ≤ printedUnits decimals x := by exact_mod_cast hunits
    have hbits : (s : ℚ) ≤ 2 ^ 24 := by exact_mod_cast hs.le
    have hfive : (5 : ℚ) ^ decimals ≤ 2 ^ 28 :=
      calc (5 : ℚ) ^ decimals ≤ 5 ^ 12 := pow_le_pow_right₀ (by norm_num) h
        _ ≤ 2 ^ 28 := by norm_num
    calc (printedUnits decimals x : ℚ) ≤ 2 * (x.magnitude * 10 ^ decimals) := by linarith
      _ = s * (2 * 2 ^ e * 2 ^ decimals) * 5 ^ decimals := by
        rw [hx, ten_pow_eq]
        ring
      _ ≤ 2 ^ 24 * (2 * 2 ^ e * 2 ^ decimals) * 2 ^ 28 := by gcongr
      _ = 2 ^ (e + decimals) * 2 ^ 53 := by
        rw [zpow_add₀ two_ne_zero, zpow_natCast]
        ring

/-- The double that is read is within half a unit of the last decimal, unless the number lies
halfway between two decimals. -/
theorem abs_roundFloat_printedValue_sub_le (h : decimals ≤ 12) :
    |roundFloat 53 (-1074) (printedValue decimals x) - x.toRat| ≤ 1 / (2 * 10 ^ decimals) ∨
      |printedValue decimals x - x.toRat| = 1 / (2 * 10 ^ decimals) := by
  have hpow : (0 : ℚ) < 10 ^ decimals := by positivity
  obtain ⟨s, e, hx, hs, he⟩ := x.exists_magnitude_eq
  rcases abs_printedUnits_sub_cases decimals hx with htie | hexact | hgap
  · right
    rw [abs_printedValue_sub, htie, div_div]
  · left
    have hsame : printedValue decimals x = x.toRat := by
      rw [← sub_eq_zero, ← abs_eq_zero, abs_printedValue_sub, hexact, sub_self, abs_zero, zero_div]
    obtain ⟨n, hn, hvalue⟩ : ∃ n : ℤ, |n| < 2 ^ 53 ∧ x.toRat = n * 2 ^ e := by
      rw [Binary32.toRat, hx]
      split_ifs
      · refine ⟨-s, ?_, ?_⟩
        · rw [abs_neg, Nat.abs_cast]
          omega
        · rw [Int.cast_neg, Int.cast_natCast, neg_mul]
      · refine ⟨s, ?_, ?_⟩
        · rw [Nat.abs_cast]
          omega
        · rw [Int.cast_natCast]
    rw [hsame, hvalue, roundFloat_eq_self hn (by omega), sub_self, abs_zero]
    positivity
  · left
    have hround := (ofRat_printedValue_eq decimals x (by omega)).2
    have hunits := printedUnits_le_of_magnitude_eq decimals h hx hs
    rw [abs_printedValue, div_right_comm] at hround
    calc |roundFloat 53 (-1074) (printedValue decimals x) - x.toRat|
        ≤ |roundFloat 53 (-1074) (printedValue decimals x) - printedValue decimals x| +
            |printedValue decimals x - x.toRat| := abs_sub_le _ _ _
      _ ≤ 2 ^ (e + decimals) / 10 ^ decimals + (1 / 2 - 2 ^ (e + decimals)) / 10 ^ decimals := by
        rw [abs_printedValue_sub]
        gcongr
        calc _ ≤ (printedUnits decimals x : ℚ) / 2 ^ 53 / 10 ^ decimals := hround
          _ ≤ 2 ^ (e + decimals) / 10 ^ decimals := by
            gcongr
            rwa [div_le_iff₀ (by positivity)]
      _ = 1 / (2 * 10 ^ decimals) := by rw [← add_div, add_sub_cancel, div_div]

end Value

/-! ### The text -/

theorem length_printPadded {width n : ℕ} (hwidth : 0 < width) (h : n < 10 ^ width) :
    (printPadded width n).length = width := by
  have hlength := (Nat.length_toDigits_le_iff (by decide) hwidth).mpr h
  rw [printPadded, List.length_append, List.length_replicate]
  omega

theorem ofDigitChars_printPadded (width n init : ℕ) :
    Nat.ofDigitChars 10 (printPadded width n) init =
      10 ^ (printPadded width n).length * init + n := by
  rw [Nat.ofDigitChars_eq_ofDigitChars_zero, printPadded, Nat.ofDigitChars_append,
    Nat.ofDigitChars_replicate_zero, mul_zero, Nat.ofDigitChars_ten_toDigits]

theorem isDigit_of_mem_printPadded {width n : ℕ} {c : Char} (h : c ∈ printPadded width n) :
    c.isDigit := by
  rcases List.mem_append.mp h with hzero | hdigit
  · rw [List.eq_of_mem_replicate hzero]
    decide
  · exact Nat.isDigit_of_mem_toDigits (by decide) le_rfl hdigit

/-- The text of a finite number has a sign, digits and a point. -/
theorem mem_printFixed {decimals : ℕ} {x : Binary32} (hx : x.Finite) {c : Char}
    (h : c ∈ printFixed decimals x) : c.isDigit ∨ c = '-' ∨ c = '.' := by
  rw [printFixed, if_pos hx, printUnits] at h
  rcases List.mem_append.mp h with hsign | hunits
  · split_ifs at hsign with hneg
    · exact Or.inr (Or.inl (List.mem_singleton.mp hsign))
    · cases hsign
  · rcases List.mem_append.mp hunits with hint | hdecimals
    · exact Or.inl (Nat.isDigit_of_mem_toDigits (by decide) le_rfl hint)
    · rcases List.mem_cons.mp hdecimals with hpoint | hdecimals
      · exact Or.inr (Or.inr hpoint)
      · exact Or.inl (isDigit_of_mem_printPadded hdecimals)

theorem length_printUnits_le {decimals width units : ℕ} (hdecimals : 0 < decimals)
    (hwidth : 0 < width) (h : units < 10 ^ (width + decimals)) :
    (printUnits decimals units).length ≤ width + 1 + decimals := by
  have hint : units / 10 ^ decimals < 10 ^ width := by
    rw [Nat.div_lt_iff_lt_mul (by positivity), ← pow_add]
    exact h
  have hlength := (Nat.length_toDigits_le_iff (b := 10) (by decide) hwidth).mpr hint
  rw [printUnits, List.length_append, List.length_cons,
    length_printPadded hdecimals (Nat.mod_lt _ (by positivity))]
  omega

/-- A number below a power of ten takes a sign, that many digits and one more, a point and the
decimals at most. -/
theorem length_printFixed_le {decimals width : ℕ} {x : Binary32} (hx : x.Finite)
    (hdecimals : 0 < decimals) (h : x.magnitude ≤ 10 ^ width) :
    (printFixed decimals x).length ≤ width + 3 + decimals := by
  have hunits : printedUnits decimals x ≤ 10 ^ width * 10 ^ decimals :=
    printedUnits_le decimals x (by exact_mod_cast h)
  have hlt : printedUnits decimals x < 10 ^ (width + 1 + decimals) := by
    calc printedUnits decimals x ≤ 10 ^ (width + decimals) := by rwa [pow_add]
      _ < 10 ^ (width + 1 + decimals) := Nat.pow_lt_pow_right (by decide) (by omega)
  have hlength := length_printUnits_le hdecimals (Nat.succ_pos width) hlt
  have hsign : (if x.negative then ['-'] else []).length ≤ 1 := by
    split_ifs <;> decide
  rw [printFixed, if_pos hx, List.length_append]
  omega

end NuedcFirmware.Lib
