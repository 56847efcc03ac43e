import NuedcFirmware.Lib.FixedPoint
import Mathlib.Data.List.DropRight
import Mathlib.Data.List.TakeWhile
import Mathlib.Tactic.MkIffOfInductiveProp

/-!
ASCII text in Python: `bytes.decode`, `str.strip`, and the conversions `int` and `float`, which
answer `none` where Python raises `ValueError`.

Both conversions read what `printf` writes: the digits of an unsigned number
(`pyInt_printUnsigned`), and a finite number with a fixed number of decimals, of which the
double nearest to the number that is printed is returned (`pyFloat_printFixed`).
-/

namespace NuedcFirmware.Lib

/-- An ASCII text in bytes. -/
def encodeAscii (s : List Char) : List UInt8 := s.map fun c => UInt8.ofNat c.toNat

/-- `decode("ascii", errors="ignore")`. -/
def decodeAscii (bytes : List UInt8) : List Char :=
  (bytes.filter (· < 128)).map fun b => Char.ofNat b.toNat

/-- The ASCII characters that `str.strip` drops. -/
def isPySpace (c : Char) : Bool :=
  c = ' ' || (9 ≤ c.toNat && c.toNat ≤ 13) || (28 ≤ c.toNat && c.toNat ≤ 31)

/-- The characters that the conversions to numbers pass over at both ends. -/
def isBlank (c : Char) : Bool := c = ' ' || (9 ≤ c.toNat && c.toNat ≤ 13)

/-- A text without the characters of a kind at its ends. -/
def trim (p : Char → Bool) (s : List Char) : List Char := (s.dropWhile p).rdropWhile p

/-- `str.strip`. -/
def strip (s : List Char) : List Char := trim isPySpace s

/-- The underscores of a number, each of which has to stand between two digits, are dropped. The
character before the text is given, if there is one. -/
def dropUnderscores (prev : Option Char) : List Char → Option (List Char)
  | [] => if prev = some '_' then none else some []
  | c :: s =>
      if c = '_' then if prev.any Char.isDigit then dropUnderscores (some c) s else none
      else if prev = some '_' ∧ ¬ c.isDigit then none
      else (dropUnderscores (some c) s).map (c :: ·)

/-- Whether a minus sign is there, and what follows the sign. -/
def takeSign : List Char → Bool × List Char
  | [] => (false, [])
  | c :: s => if c = '-' then (true, s) else if c = '+' then (false, s) else (false, c :: s)

/-- One digit or more. -/
def allDigits (s : List Char) : Bool := !s.isEmpty && s.all Char.isDigit

/-- The most digits `int` converts. -/
def maxStrDigits : ℕ := 4300

/-- `int`, of a `str`. -/
def pyInt (s : List Char) : Option ℤ :=
  let (negative, s) := takeSign (trim isBlank s)
  (dropUnderscores none s).bind fun digits =>
    if allDigits digits ∧ digits.length ≤ maxStrDigits then
      let n : ℤ := Nat.ofDigitChars 10 digits 0
      some (if negative then -n else n)
    else none

/-- What may stand behind the digits of a number: nothing, or an exponent. -/
def parseExponent : List Char → Option ℤ
  | [] => some 0
  | c :: s =>
      let (negative, digits) := takeSign s
      if (c = 'e' ∨ c = 'E') ∧ allDigits digits then
        let n : ℤ := Nat.ofDigitChars 10 digits 0
        some (if negative then -n else n)
      else none

/-- A number in digits without a sign: digits, a point and digits, of which a part may be missing,
and an exponent. -/
def parseDecimal (s : List Char) : Option ℚ :=
  let int := s.takeWhile Char.isDigit
  let rest := s.dropWhile Char.isDigit
  let behind := if rest.head? = some '.' then rest.tail else rest
  let frac := if rest.head? = some '.' then behind.takeWhile Char.isDigit else []
  if int = [] ∧ frac = [] then none
  else (parseExponent (behind.drop frac.length)).map fun e =>
    (Nat.ofDigitChars 10 (int ++ frac) 0 : ℚ) * 10 ^ (e - (frac.length : ℤ))

/-- `float`, of a `str`. -/
def pyFloat (s : List Char) : Option Binary64 :=
  (dropUnderscores none (trim isBlank s)).bind fun s =>
    let (negative, s) := takeSign s
    let word := s.map Char.toLower
    if word = "inf".toList ∨ word = "infinity".toList then some (.inf negative)
    else if word = "nan".toList then some .nan
    else (parseDecimal s).map fun x => Binary64.ofRat (if negative then -x else x)

example : pyInt " -1_000 ".toList = some (-1000) := by decide +kernel
example : pyInt "1__0".toList = none := by decide +kernel
example : pyFloat "-1.5e1".toList = some (.finite (-15)) := by decide +kernel
example : pyFloat "1.5.".toList = none := by decide +kernel

/-! ### Bytes and fields -/

theorem decodeAscii_encodeAscii {s : List Char} (h : ∀ c ∈ s, c.toNat < 128) :
    decodeAscii (encodeAscii s) = s := by
  induction s with
  | nil => rfl
  | cons c s ih =>
      have hc := h c List.mem_cons_self
      have htoNat : (UInt8.ofNat c.toNat).toNat = c.toNat := by
        rw [UInt8.toNat_ofNat', Nat.mod_eq_of_lt (by omega)]
      have hlt : UInt8.ofNat c.toNat < 128 := by
        rw [UInt8.lt_iff_toNat_lt, htoNat]
        exact hc
      have htail := ih fun d hd => h d (List.mem_cons_of_mem c hd)
      rw [decodeAscii, encodeAscii] at htail ⊢
      rw [List.map_cons, List.filter_cons_of_pos (by exact decide_eq_true hlt), List.map_cons,
        htail, htoNat, Char.ofNat_toNat]

/-- A joined text has the characters of its parts and the separator. -/
theorem mem_intercalate {sep c : Char} {parts : List (List Char)}
    (h : c ∈ [sep].intercalate parts) : c = sep ∨ ∃ part ∈ parts, c ∈ part := by
  induction parts with
  | nil => cases h
  | cons part parts ih =>
      cases parts with
      | nil =>
          rw [List.intercalate_singleton] at h
          exact Or.inr ⟨part, List.mem_cons_self, h⟩
      | cons next parts =>
          rw [List.intercalate_cons_cons, List.append_assoc] at h
          rcases List.mem_append.mp h with hpart | h
          · exact Or.inr ⟨part, List.mem_cons_self, hpart⟩
          · rcases List.mem_cons.mp h with hsep | h
            · exact Or.inl hsep
            · rcases ih h with hsep | ⟨other, hmem, hc⟩
              · exact Or.inl hsep
              · exact Or.inr ⟨other, List.mem_cons_of_mem part hmem, hc⟩

theorem length_intercalate_le (sep : Char) (parts : List (List Char)) :
    ([sep].intercalate parts).length ≤ (parts.map fun part => part.length + 1).sum := by
  induction parts with
  | nil => exact le_rfl
  | cons part parts ih =>
      cases parts with
      | nil =>
          rw [List.intercalate_singleton, List.map_singleton, List.sum_singleton]
          exact Nat.le_succ _
      | cons next parts =>
          rw [List.intercalate_cons_cons, List.append_assoc, List.length_append,
            List.length_append, List.length_singleton, List.map_cons, List.sum_cons]
          omega

/-! ### Texts without blanks and underscores -/

theorem rdropWhile_of_forall {p : Char → Bool} {s : List Char} (h : ∀ c ∈ s, p c = false) :
    s.rdropWhile p = s := by
  rw [List.rdropWhile_eq_self_iff]
  intro hne
  rw [h _ (List.getLast_mem hne)]
  exact Bool.false_ne_true

theorem trim_of_forall {p : Char → Bool} {s : List Char} (h : ∀ c ∈ s, p c = false) :
    trim p s = s := by
  have hdrop : s.dropWhile p = s := by
    cases s with
    | nil => rfl
    | cons c s => rw [List.dropWhile_cons, h c List.mem_cons_self, if_neg Bool.false_ne_true]
  rw [trim, hdrop, rdropWhile_of_forall h]

/-- A text is stripped of its line end. -/
theorem strip_append_lineEnd {s : List Char} (hne : s ≠ []) (h : ∀ c ∈ s, isPySpace c = false) :
    strip (s ++ ['\r', '\n']) = s := by
  have hdrop : (s ++ ['\r', '\n']).dropWhile isPySpace = s ++ ['\r', '\n'] := by
    cases s with
    | nil => exact absurd rfl hne
    | cons c s =>
        rw [List.cons_append, List.dropWhile_cons, h c List.mem_cons_self,
          if_neg Bool.false_ne_true]
  have hlast : (s ++ ['\r', '\n']).rdropWhile isPySpace = s.rdropWhile isPySpace := by
    rw [← List.singleton_append (l := ['\n']), ← List.append_assoc,
      List.rdropWhile_concat_pos _ _ _ (by decide), List.rdropWhile_concat_pos _ _ _ (by decide)]
  rw [strip, trim, hdrop, hlast, rdropWhile_of_forall h]

theorem dropUnderscores_of_notMem {s : List Char} (h : '_' ∉ s) {prev : Option Char}
    (hprev : prev ≠ some '_') : dropUnderscores prev s = some s := by
  induction s generalizing prev with
  | nil => exact if_neg hprev
  | cons c s ih =>
      rw [List.mem_cons, not_or] at h
      have hc : some c ≠ some '_' := fun heq => h.1 (Option.some.inj heq).symm
      rw [dropUnderscores, if_neg (Ne.symm h.1), if_neg (fun hand => hprev hand.1),
        ih h.2 hc, Option.map_some]

theorem takeSign_of_isDigit {c : Char} {s : List Char} (h : c.isDigit) :
    takeSign (c :: s) = (false, c :: s) := by
  have hminus : c ≠ '-' := by
    rintro rfl
    exact absurd h (by decide)
  have hplus : c ≠ '+' := by
    rintro rfl
    exact absurd h (by decide)
  rw [takeSign, if_neg hminus, if_neg hplus]

/-- A character that no conversion and no separator takes for anything but itself. -/
@[mk_iff]
structure Plain (c : Char) : Prop where
  ascii : c.toNat < 128
  pySpace : isPySpace c = false
  blank : isBlank c = false
  underscore : c ≠ '_'
  comma : c ≠ ','

instance (c : Char) : Decidable (Plain c) := decidable_of_iff' _ (plain_iff c)

theorem plain_of_isDigit {c : Char} (h : c.isDigit) : Plain c := by
  have hval : 48 ≤ c.toNat ∧ c.toNat ≤ 57 := Char.isDigit_iff_toNat.mp h
  have hne : ∀ d : Char, d.toNat < 48 ∨ 57 < d.toNat → c ≠ d := by
    rintro d hd rfl
    omega
  have hspace := hne ' ' (by decide)
  refine ⟨by omega, ?_, ?_, hne '_' (by decide), hne ',' (by decide)⟩
  · simp only [isPySpace, hspace, decide_false, Bool.false_or, Bool.or_eq_false_iff,
      Bool.and_eq_false_iff, decide_eq_false_iff_not]
    omega
  · simp only [isBlank, hspace, decide_false, Bool.false_or, Bool.and_eq_false_iff,
      decide_eq_false_iff_not]
    omega

theorem plain_printUnsigned (n : ℕ) : ∀ c ∈ printUnsigned n, Plain c := fun _ hc =>
  plain_of_isDigit (Nat.isDigit_of_mem_toDigits (by decide) le_rfl hc)

theorem plain_printFixed {decimals : ℕ} {x : Binary32} (hx : x.Finite) :
    ∀ c ∈ printFixed decimals x, Plain c := by
  intro c hc
  rcases mem_printFixed hx hc with hdigit | rfl | rfl
  · exact plain_of_isDigit hdigit
  · decide
  · decide

/-! ### What is printed is read -/

theorem allDigits_toDigits (n : ℕ) : allDigits (Nat.toDigits 10 n) = true := by
  rw [allDigits, Bool.and_eq_true, List.all_eq_true]
  constructor
  · simp
  · intro c hc
    exact Nat.isDigit_of_mem_toDigits (by decide) le_rfl hc

/-- `int` reads what `%u` writes. -/
theorem pyInt_printUnsigned {n : ℕ} (h : n < 10 ^ maxStrDigits) :
    pyInt (printUnsigned n) = some (n : ℤ) := by
  have hdigit : ∀ c ∈ printUnsigned n, c.isDigit := fun c hc =>
    Nat.isDigit_of_mem_toDigits (by decide) le_rfl hc
  have htrim : trim isBlank (printUnsigned n) = printUnsigned n :=
    trim_of_forall fun c hc => (plain_printUnsigned n c hc).blank
  have hsign : takeSign (printUnsigned n) = (false, printUnsigned n) := by
    cases hs : printUnsigned n with
    | nil => rfl
    | cons c s => exact takeSign_of_isDigit (hdigit c (hs ▸ List.mem_cons_self))
  have hdrop : dropUnderscores none (printUnsigned n) = some (printUnsigned n) :=
    dropUnderscores_of_notMem Nat.underscore_not_in_toDigits (by simp)
  have hlength : (printUnsigned n).length ≤ maxStrDigits :=
    (Nat.length_toDigits_le_iff (by decide) (by decide)).mpr h
  simp only [pyInt, htrim, hsign, hdrop, Option.bind_some]
  rw [if_pos ⟨allDigits_toDigits n, hlength⟩, printUnsigned, Nat.ofDigitChars_ten_toDigits]
  rfl

theorem parseDecimal_printUnits (decimals : ℕ) (hdecimals : 0 < decimals) (units : ℕ) :
    parseDecimal (printUnits decimals units) = some (units / 10 ^ decimals : ℚ) := by
  have hint : ∀ c ∈ Nat.toDigits 10 (units / 10 ^ decimals), c.isDigit := fun c hc =>
    Nat.isDigit_of_mem_toDigits (by decide) le_rfl hc
  have hfrac : ∀ c ∈ printPadded decimals (units % 10 ^ decimals), c.isDigit := fun c hc =>
    isDigit_of_mem_printPadded hc
  have hlength : (printPadded decimals (units % 10 ^ decimals)).length = decimals :=
    length_printPadded hdecimals (Nat.mod_lt _ (by positivity))
  have htake : (printUnits decimals units).takeWhile Char.isDigit =
      Nat.toDigits 10 (units / 10 ^ decimals) := by
    rw [printUnits, List.takeWhile_append_of_pos hint, List.takeWhile_cons_of_neg (by decide),
      List.append_nil]
  have hdrop : (printUnits decimals units).dropWhile Char.isDigit =
      '.' :: printPadded decimals (units % 10 ^ decimals) := by
    rw [printUnits, List.dropWhile_append_of_pos hint, List.dropWhile_cons_of_neg (by decide)]
  have hvalue : Nat.ofDigitChars 10 (Nat.toDigits 10 (units / 10 ^ decimals) ++
      printPadded decimals (units % 10 ^ decimals)) 0 = units := by
    rw [Nat.ofDigitChars_append, Nat.ofDigitChars_ten_toDigits, ofDigitChars_printPadded, hlength,
      Nat.div_add_mod]
  have hall : (printPadded decimals (units % 10 ^ decimals)).takeWhile Char.isDigit =
      printPadded decimals (units % 10 ^ decimals) := List.takeWhile_eq_self_iff.mpr hfrac
  have hbehind : parseExponent ((printPadded decimals (units % 10 ^ decimals)).drop decimals) =
      some 0 := by
    rw [List.drop_of_length_le hlength.le]
    rfl
  simp only [parseDecimal, htake, hdrop, List.head?_cons, List.tail_cons, if_true, hall, hvalue,
    hlength, hbehind, Option.map_some]
  rw [if_neg (fun hand => Nat.toDigits_ne_nil hand.1), zero_sub, zpow_neg, zpow_natCast,
    div_eq_mul_inv]

/-- `float` reads what `%.3f` writes, and returns the double nearest to it. -/
theorem pyFloat_printFixed {decimals : ℕ} (hdecimals : 0 < decimals) {x : Binary32}
    (hx : x.Finite) :
    pyFloat (printFixed decimals x) = some (Binary64.ofRat (printedValue decimals x)) := by
  have hplain : ∀ c ∈ printFixed decimals x, Plain c := plain_printFixed hx
  have htrim : trim isBlank (printFixed decimals x) = printFixed decimals x :=
    trim_of_forall fun c hc => (hplain c hc).blank
  have hdrop : dropUnderscores none (printFixed decimals x) = some (printFixed decimals x) :=
    dropUnderscores_of_notMem (fun hmem => (hplain _ hmem).underscore rfl) (by simp)
  have hsign : takeSign (printFixed decimals x) =
      (x.negative, printUnits decimals (printedUnits decimals x)) := by
    rw [printFixed, if_pos hx]
    cases x.negative with
    | true => rfl
    | false =>
        rw [if_neg Bool.false_ne_true, List.nil_append, printUnits]
        cases hs : Nat.toDigits 10 (printedUnits decimals x / 10 ^ decimals) with
        | nil => exact absurd hs Nat.toDigits_ne_nil
        | cons c s =>
            exact takeSign_of_isDigit
              (Nat.isDigit_of_mem_toDigits (by decide) le_rfl (hs ▸ List.mem_cons_self))
  -- the point tells the text from the words
  have hpoint : '.' ∈ (printUnits decimals (printedUnits decimals x)).map Char.toLower :=
    List.mem_map.mpr ⟨'.', by simp [printUnits], by decide⟩
  have hword : ∀ word, '.' ∉ word →
      (printUnits decimals (printedUnits decimals x)).map Char.toLower ≠ word := by
    rintro word hnot rfl
    exact hnot hpoint
  simp only [pyFloat, htrim, hdrop, hsign, Option.bind_some]
  rw [if_neg (not_or.mpr ⟨hword _ (by decide), hword _ (by decide)⟩),
    if_neg (hword _ (by decide)), parseDecimal_printUnits decimals hdecimals, Option.map_some,
    printedValue]
  congr 2
  split_ifs <;> ring

end NuedcFirmware.Lib
