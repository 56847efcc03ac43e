import Mathlib.Algebra.Group.Int.Defs
import Mathlib.Algebra.Group.Nat.Defs
import Mathlib.Data.Int.Basic
import Mathlib.Data.Nat.Basic

/-!
Fixed-width integers: the wrapping millisecond counter and the conversions to
the signed types.

A free-running counter shows `tick32 t` at true time `t`. The difference of two
readings is the elapsed time modulo the period of the counter
(`toNat_tick32_sub`), and is the elapsed time itself as long as that is below
one period (`toNat_tick32_sub_of_lt`), however often the counter has wrapped in
between the epoch and the readings.
-/

namespace NuedcFirmware.Lib

/-- What a free-running 32-bit counter shows at true time `t`. -/
def tick32 (t : ℕ) : UInt32 := UInt32.ofNat t

@[simp] theorem toNat_tick32 (t : ℕ) : (tick32 t).toNat = t % 2 ^ 32 := by
  simp [tick32]

theorem toNat_tick32_sub {s t : ℕ} (h : s ≤ t) :
    (tick32 t - tick32 s).toNat = (t - s) % 2 ^ 32 := by
  rw [UInt32.toNat_sub, toNat_tick32, toNat_tick32]
  omega

theorem toNat_tick32_sub_of_lt {s t : ℕ} (h : s ≤ t) (hlt : t - s < 2 ^ 32) :
    (tick32 t - tick32 s).toNat = t - s := by
  rw [toNat_tick32_sub h, Nat.mod_eq_of_lt hlt]

/-- A reading that is more than `d` old, told from two counter values. -/
theorem lt_tick32_sub_iff {s t d : ℕ} (h : s ≤ t) (hlt : t - s < 2 ^ 32)
    (hd : d < 2 ^ 32) : UInt32.ofNat d < tick32 t - tick32 s ↔ d < t - s := by
  rw [UInt32.lt_iff_toNat_lt, toNat_tick32_sub_of_lt h hlt, UInt32.toNat_ofNat',
    Nat.mod_eq_of_lt hd]

/-- A sum of bytes that fits. -/
theorem toNat_add8 {a b : UInt8} (h : a.toNat + b.toNat < 2 ^ 8) :
    (a + b).toNat = a.toNat + b.toNat :=
  (UInt8.toNat_add ..).trans (Nat.mod_eq_of_lt h)

/-- A difference of bytes that is not negative. -/
theorem toNat_sub8 {a b : UInt8} (h : b.toNat ≤ a.toNat) :
    (a - b).toNat = a.toNat - b.toNat :=
  UInt8.toNat_sub_of_le _ _ (UInt8.le_iff_toNat_le.mpr h)

/-- Conversion to `int16_t`. -/
def toInt16 (x : ℤ) : ℤ := x.bmod (2 ^ 16)

theorem toInt16_of_mem {x : ℤ} (hlo : -2 ^ 15 ≤ x) (hhi : x < 2 ^ 15) : toInt16 x = x :=
  Int.bmod_eq_of_le (by omega) (by omega)

/-- Conversion to `int32_t`. -/
def toInt32 (x : ℤ) : ℤ := x.bmod (2 ^ 32)

theorem toInt32_of_mem {x : ℤ} (hlo : -2 ^ 31 ≤ x) (hhi : x < 2 ^ 31) : toInt32 x = x :=
  Int.bmod_eq_of_le (by omega) (by omega)

end NuedcFirmware.Lib
