import Mathlib.Data.BitVec
import Mathlib.Data.UInt

/-!
Bit-fields of a word.

`field` reads the bits from a position on, `withField` exchanges them and leaves the others
as they are. A field that was written is read back (`field_withField`), and one that does
not meet it is not touched (`field_withField_of_disjoint`).
-/

namespace NuedcFirmware.Lib

variable {n w w' lo lo' : ℕ}

/-- The `w` bits from the `lo`-th on. -/
def field (lo w : ℕ) (b : BitVec n) : BitVec w := b.extractLsb' lo w

/-- The word with the bits from the `lo`-th on exchanged for `v`. -/
def withField (lo : ℕ) (v : BitVec w) (b : BitVec n) : BitVec n :=
  (b &&& ~~~((BitVec.allOnes w).setWidth n <<< lo)) ||| (v.setWidth n <<< lo)

@[simp] theorem getLsbD_field (b : BitVec n) (i : ℕ) :
    (field lo w b).getLsbD i = (decide (i < w) && b.getLsbD (lo + i)) := by
  rw [field, BitVec.getLsbD_extractLsb']

theorem getLsbD_withField (v : BitVec w) (b : BitVec n) {i : ℕ} (hi : i < n) :
    (withField lo v b).getLsbD i =
      if lo ≤ i ∧ i < lo + w then v.getLsbD (i - lo) else b.getLsbD i := by
  have hn : i - lo < n := by omega
  simp only [withField, BitVec.getLsbD_or, BitVec.getLsbD_and, BitVec.getLsbD_not,
    BitVec.getLsbD_shiftLeft, BitVec.getLsbD_setWidth, BitVec.getLsbD_allOnes, hi, hn]
  by_cases hlo : lo ≤ i
  · by_cases hw : i < lo + w
    · simp [hlo, hw, show ¬i < lo by omega, show i - lo < w by omega]
    · simp [hw, show ¬i - lo < w by omega, BitVec.getLsbD_of_ge v (i - lo) (by omega)]
  · simp [hlo, show i < lo by omega]

/-- What was written is read back. -/
@[simp] theorem field_withField (h : lo + w ≤ n) (v : BitVec w) (b : BitVec n) :
    field lo w (withField lo v b) = v := by
  ext i hi
  rw [← BitVec.getLsbD_eq_getElem, ← BitVec.getLsbD_eq_getElem, getLsbD_field,
    getLsbD_withField v b (by omega), if_pos (by omega)]
  simp [hi]

/-- A field apart from the one that was written is not touched. -/
theorem field_withField_of_disjoint (h : lo' + w' ≤ n) (hdisjoint : lo' + w' ≤ lo ∨ lo + w ≤ lo')
    (v : BitVec w) (b : BitVec n) : field lo' w' (withField lo v b) = field lo' w' b := by
  ext i hi
  rw [← BitVec.getLsbD_eq_getElem, ← BitVec.getLsbD_eq_getElem, getLsbD_field, getLsbD_field,
    getLsbD_withField v b (by omega), if_neg (by omega)]

end NuedcFirmware.Lib
