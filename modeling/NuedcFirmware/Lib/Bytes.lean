import NuedcFirmware.Lib.MachineInt
import Mathlib.Data.List.Basic
import Mathlib.Data.UInt

/-!
Bytes of a serial protocol: the xor checksum and little-endian 16-bit words.

`word16` is the number two bytes stand for and `int16` the same number read as
signed; `lowByte` and `highByte` take a number apart again, and putting together
what they give is the identity on the numbers that fit (`int16_bytes`,
`word16_bytes`).
-/

namespace NuedcFirmware.Lib

/-- A pointer to bytes: whether it is null, and what is read through it. -/
structure BytePtr where
  null : Bool
  bytes : ℕ → UInt8

/-- The xor of all bytes. -/
def xorSum (bytes : List UInt8) : UInt8 := bytes.foldl (· ^^^ ·) 0

@[simp] theorem xorSum_append_singleton (bytes : List UInt8) (b : UInt8) :
    xorSum (bytes ++ [b]) = xorSum bytes ^^^ b := by
  simp [xorSum]

theorem xorSum_append (bytes bytes' : List UInt8) :
    xorSum (bytes ++ bytes') = xorSum bytes ^^^ xorSum bytes' := by
  induction bytes' using List.reverseRecOn with
  | nil => simp [xorSum]
  | append_singleton bytes' b ih =>
      rw [← List.append_assoc, xorSum_append_singleton, xorSum_append_singleton, ih,
        UInt8.xor_assoc]

/-- The sum tells a string from one that differs from it in one byte. -/
theorem xorSum_set_ne {bytes : List UInt8} {i : ℕ} (hi : i < bytes.length) {b : UInt8}
    (hb : b ≠ bytes[i]) : xorSum (bytes.set i b) ≠ xorSum bytes := by
  intro heq
  have hbytes : bytes = bytes.take i ++ ([bytes[i]] ++ bytes.drop (i + 1)) := by simp
  rw [List.set_eq_take_append_cons_drop, if_pos hi, ← List.singleton_append] at heq
  conv at heq => rhs; rw [hbytes]
  simp only [xorSum_append, UInt8.xor_right_inj, UInt8.xor_left_inj] at heq
  apply hb
  simpa [xorSum] using heq

/-- The number of two bytes, the low one first. -/
def word16 (lo hi : UInt8) : ℕ := lo.toNat + 256 * hi.toNat

/-- The two bytes as a signed number. -/
def int16 (lo hi : UInt8) : ℤ := toInt16 (word16 lo hi)

def lowByte (x : ℤ) : UInt8 := UInt8.ofNat (x % 256).toNat

def highByte (x : ℤ) : UInt8 := UInt8.ofNat (x / 256 % 256).toNat

/-- How C writes it: the high byte is shifted and the bits are put together. -/
theorem or_shiftLeft_eq_word16 (lo hi : UInt8) :
    lo.toNat ||| hi.toNat <<< 8 = word16 lo hi := by
  have hlo : lo.toNat < 2 ^ 8 := lo.toNat_lt
  rw [Nat.or_comm, ← Nat.shiftLeft_add_eq_or_of_lt hlo, Nat.shiftLeft_eq, word16]
  omega

theorem word16_lowByte_highByte (x : ℤ) :
    (word16 (lowByte x) (highByte x) : ℤ) = x % 2 ^ 16 := by
  have hlo : (x % 256).toNat < 2 ^ 8 := by omega
  have hhi : (x / 256 % 256).toNat < 2 ^ 8 := by omega
  rw [word16, lowByte, highByte, UInt8.toNat_ofNat', UInt8.toNat_ofNat',
    Nat.mod_eq_of_lt hlo, Nat.mod_eq_of_lt hhi]
  omega

/-- Taking an unsigned number apart and putting it together. -/
theorem word16_bytes {n : ℕ} (h : n < 2 ^ 16) : word16 (lowByte n) (highByte n) = n := by
  have hword := word16_lowByte_highByte n
  omega

/-- Taking a signed number apart and putting it together. -/
theorem int16_bytes {x : ℤ} (hlo : -2 ^ 15 ≤ x) (hhi : x < 2 ^ 15) :
    int16 (lowByte x) (highByte x) = x := by
  rw [int16, word16_lowByte_highByte, toInt16, Int.bmod_def]
  split <;> omega

/-- How many copies of a byte a string ends with. -/
def trailing (c : UInt8) (bytes : List UInt8) : ℕ := (bytes.reverse.takeWhile (· = c)).length

@[simp] theorem trailing_append_self (c : UInt8) (bytes : List UInt8) :
    trailing c (bytes ++ [c]) = trailing c bytes + 1 := by
  simp [trailing]

theorem trailing_append_of_ne {b c : UInt8} (h : b ≠ c) (bytes : List UInt8) :
    trailing c (bytes ++ [b]) = 0 := by
  simp [trailing, h]

@[simp] theorem trailing_nil (c : UInt8) : trailing c [] = 0 := rfl

end NuedcFirmware.Lib
