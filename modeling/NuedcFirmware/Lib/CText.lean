import NuedcFirmware.Lib.MachineInt

/-!
C text: a string is the list of its bytes up to the terminating zero, and the
number conversions of `stdlib.h` in base 10, on a target whose `long` has 32
bits. They skip white space, take an optional sign and the longest run of digits
that follows, and saturate where the value does not fit.
-/

namespace NuedcFirmware.Lib

/-- The bytes of a C string literal. -/
def ascii (s : String) : List UInt8 := s.toList.map fun c => UInt8.ofNat c.toNat

/-- `isspace`: blank, tab, line feed, vertical tab, form feed, carriage return. -/
def isSpace (c : UInt8) : Bool := c = 32 || (9 ≤ c && c ≤ 13)

def isDigit (c : UInt8) : Bool := 48 ≤ c && c ≤ 57

/-- The value of the longest run of digits a string begins with. -/
def digitsValue (s : List UInt8) : ℕ :=
  (s.takeWhile isDigit).foldl (fun value c => 10 * value + (c.toNat - 48)) 0

/-- The optional sign and the magnitude that the conversions read. -/
def signedDigits (s : List UInt8) : Bool × ℕ :=
  match s.dropWhile isSpace with
  | [] => (false, 0)
  | c :: rest =>
      if c = 45 then (true, digitsValue rest)
      else if c = 43 then (false, digitsValue rest)
      else (false, digitsValue (c :: rest))

/-- `strtol` in base 10. -/
def strtol (s : List UInt8) : ℤ :=
  let (negative, magnitude) := signedDigits s
  if negative then max (-2 ^ 31) (-(magnitude : ℤ)) else min (2 ^ 31 - 1) magnitude

/-- `strtoul` in base 10: a minus sign negates modulo `2 ^ 32`. -/
def strtoul (s : List UInt8) : UInt32 :=
  let (negative, magnitude) := signedDigits s
  if 2 ^ 32 ≤ magnitude then UInt32.ofNat (2 ^ 32 - 1)
  else if negative then -UInt32.ofNat magnitude else UInt32.ofNat magnitude

/-- `atoi`. -/
def atoi (s : List UInt8) : ℤ := strtol s

/-- `strchr` as the callers use it, cutting the string in two: what stands
before the first occurrence of a byte, and what stands behind it if there is
one. -/
def cutAt (c : UInt8) : List UInt8 → List UInt8 × Option (List UInt8)
  | [] => ([], none)
  | x :: rest =>
      if x = c then ([], some rest)
      else
        let (before, behind) := cutAt c rest
        (x :: before, behind)

example : strtol (ascii " -300x") = -300 := by decide
example : strtoul (ascii "-1") = UInt32.ofNat (2 ^ 32 - 1) := by decide
example : cutAt 44 (ascii "300,-5,800") = (ascii "300", some (ascii "-5,800")) := by decide

end NuedcFirmware.Lib
