import Mathlib.Data.List.Basic
import Mathlib.Data.List.TakeWhile
import NuedcFirmware.Lib.CText

/-!
Decimal integers as text, and what the conversions of `stdlib.h` make of them.

A numeral is a sign, which may be missing, and one digit or more. On numerals the
conversions are exact where the value fits (`strtol_of_numeral`, `strtoul_of_numeral`). On
other texts they answer too, so what is no numeral has to be found out in another way.
-/

namespace NuedcFirmware.Lib

/-- The number that digits stand for. -/
def decimalValue (digits : List UInt8) : ℕ :=
  digits.foldl (fun value c => 10 * value + (c.toNat - 48)) 0

/-- One digit or more. -/
structure Digits (s : List UInt8) : Prop where
  nonempty : s ≠ []
  isDigit : ∀ c ∈ s, isDigit c = true

/-- A text writes an integer. -/
inductive Numeral : List UInt8 → ℤ → Prop
  | plain {digits : List UInt8} : Digits digits → Numeral digits (decimalValue digits)
  | plus {digits : List UInt8} : Digits digits → Numeral (43 :: digits) (decimalValue digits)
  | minus {digits : List UInt8} : Digits digits → Numeral (45 :: digits) (-decimalValue digits)

/-! ### The conversions -/

section Digits

variable {c : UInt8} {s : List UInt8}

theorem digitsValue_of_digits (h : Digits s) : digitsValue s = decimalValue s := by
  rw [digitsValue, List.takeWhile_eq_self_iff.mpr h.isDigit, decimalValue]

/-- A digit is no white space. -/
theorem isSpace_eq_false_of_isDigit (h : isDigit c = true) : isSpace c = false := by
  have hlo : (48 : UInt8) ≤ c := by simpa using (Bool.and_eq_true_iff.mp h).1
  have hne : c ≠ 32 := by
    rintro rfl
    exact absurd hlo (by decide)
  have habove : ¬ c ≤ 13 := fun hle => absurd (UInt8.le_trans hlo hle) (by decide)
  simp only [isSpace, hne, habove, decide_false, Bool.and_false, Bool.or_false]

theorem signedDigits_of_digits (h : Digits s) : signedDigits s = (false, decimalValue s) := by
  rw [← digitsValue_of_digits h]
  cases s with
  | nil => exact absurd rfl h.nonempty
  | cons c rest =>
      have hc := h.isDigit c List.mem_cons_self
      have hspace := isSpace_eq_false_of_isDigit hc
      have hminus : c ≠ 45 := by
        rintro rfl
        exact absurd hc (by decide)
      have hplus : c ≠ 43 := by
        rintro rfl
        exact absurd hc (by decide)
      simp only [signedDigits, List.dropWhile_cons, hspace, Bool.false_eq_true, if_false, hminus,
        hplus]

theorem signedDigits_plus (h : Digits s) : signedDigits (43 :: s) = (false, decimalValue s) := by
  rw [← digitsValue_of_digits h]
  rfl

theorem signedDigits_minus (h : Digits s) : signedDigits (45 :: s) = (true, decimalValue s) := by
  rw [← digitsValue_of_digits h]
  rfl

end Digits

/-- A numeral that fits `long` is converted exactly. -/
theorem strtol_of_numeral {s : List UInt8} {n : ℤ} (h : Numeral s n) (hlo : -2 ^ 31 ≤ n)
    (hhi : n < 2 ^ 31) : strtol s = n := by
  cases h with
  | plain hdigits =>
      simp only [strtol, signedDigits_of_digits hdigits, Bool.false_eq_true, if_false]
      omega
  | plus hdigits =>
      simp only [strtol, signedDigits_plus hdigits, Bool.false_eq_true, if_false]
      omega
  | minus hdigits =>
      simp only [strtol, signedDigits_minus hdigits, if_true]
      omega

/-- A numeral that fits `unsigned long` is converted exactly. -/
theorem strtoul_of_numeral {s : List UInt8} {n : UInt32} (h : Numeral s n.toNat) :
    strtoul s = n := by
  have hlt := n.toNat_lt
  generalize hm : (n.toNat : ℤ) = m at h
  cases h with
  | @plain digits hdigits =>
      have hvalue : decimalValue s = n.toNat := by omega
      simp only [strtoul, signedDigits_of_digits hdigits, hvalue, Bool.false_eq_true, if_false,
        if_neg (not_le.mpr hlt)]
      exact UInt32.ofNat_toNat
  | @plus digits hdigits =>
      have hvalue : decimalValue digits = n.toNat := by omega
      simp only [strtoul, signedDigits_plus hdigits, hvalue, Bool.false_eq_true, if_false,
        if_neg (not_le.mpr hlt)]
      exact UInt32.ofNat_toNat
  | @minus digits hdigits =>
      -- only zero can be written with a minus sign
      have hvalue : decimalValue digits = 0 := by omega
      have hzero : n.toNat = 0 := by omega
      have hn : n = 0 := UInt32.toNat_inj.mp hzero
      simp only [strtoul, signedDigits_minus hdigits, hvalue, hn]
      rfl

/-- A numeral is made of digits and signs. -/
theorem Numeral.bytes {s : List UInt8} {n : ℤ} (h : Numeral s n) :
    ∀ c ∈ s, isDigit c = true ∨ c = 43 ∨ c = 45 := by
  intro c hc
  cases h with
  | plain hdigits => exact Or.inl (hdigits.isDigit c hc)
  | plus hdigits =>
      rcases List.mem_cons.mp hc with hsign | hc
      · exact Or.inr (Or.inl hsign)
      · exact Or.inl (hdigits.isDigit c hc)
  | minus hdigits =>
      rcases List.mem_cons.mp hc with hsign | hc
      · exact Or.inr (Or.inr hsign)
      · exact Or.inl (hdigits.isDigit c hc)

/-! ### Texts cut in two -/

theorem cutAt_of_notMem {c : UInt8} {s : List UInt8} (h : c ∉ s) : cutAt c s = (s, none) := by
  induction s with
  | nil => rfl
  | cons x s ih =>
      rw [List.mem_cons, not_or] at h
      rw [cutAt, if_neg (Ne.symm h.1), ih h.2]

theorem cutAt_append {c : UInt8} {before : List UInt8} (h : c ∉ before) (behind : List UInt8) :
    cutAt c (before ++ c :: behind) = (before, some behind) := by
  induction before with
  | nil => exact if_pos rfl
  | cons x before ih =>
      rw [List.mem_cons, not_or] at h
      rw [List.cons_append, cutAt, if_neg (Ne.symm h.1), ih h.2]

theorem cutAt_of_mem {c : UInt8} {s : List UInt8} (h : c ∈ s) :
    ∃ behind, (cutAt c s).2 = some behind := by
  induction s with
  | nil => cases h
  | cons x s ih =>
      rw [cutAt]
      split_ifs with hx
      · exact ⟨s, rfl⟩
      · rcases List.mem_cons.mp h with rfl | hs
        · exact absurd rfl hx
        · exact ih hs

end NuedcFirmware.Lib
