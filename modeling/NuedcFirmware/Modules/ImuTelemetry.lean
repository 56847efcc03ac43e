import NuedcFirmware.Lib.PyText

/-!
The line that `telemetry.c` sends of the IMU, and the tool `imu_capture.py` that reads it.

The line shows a time, nine numbers of the program and a flag, which `Telemetry_BindImu` is given
the addresses of. The tool takes the line apart at its commas and returns a sample with a name for
each part. What is returned under a name is what was bound as that quantity: the time and the flag
themselves, and the numbers up to the decimals that are printed.

What is returned of a number is the double nearest to the decimal that is printed. The number has
few enough bits that the two roundings together are within half a unit of the last decimal, but for
a number in the middle between two decimals: nothing is left of half a unit there, and the double
may be a little further away (`not_readsBack_halfUnit`).
-/

namespace NuedcFirmware.Modules.ImuTelemetry

open NuedcFirmware.Lib

/-- What the addresses of the program hold. -/
structure Memory where
  float : ℕ → Binary32
  byte : ℕ → UInt8

/-- The arguments of `Telemetry_BindImu`, which are addresses, with 0 for the null pointer. -/
structure ImuArgs where
  pitchDeg : ℕ
  rollDeg : ℕ
  yawDeg : ℕ
  gxDps : ℕ
  gyDps : ℕ
  gzDps : ℕ
  axG : ℕ
  ayG : ℕ
  azG : ℕ
  ready : ℕ

/-- `TelemetryImuBind_t`. -/
structure TelemetryImuBind where
  pitchDeg : ℕ
  rollDeg : ℕ
  yawDeg : ℕ
  gxDps : ℕ
  gyDps : ℕ
  gzDps : ℕ
  axG : ℕ
  ayG : ℕ
  azG : ℕ
  ready : ℕ
  valid : Bool

/-- `Telemetry_BindImu`, which sets all of `s_imu`. -/
def telemetryBindImu (a : ImuArgs) : TelemetryImuBind where
  pitchDeg := a.pitchDeg
  rollDeg := a.rollDeg
  yawDeg := a.yawDeg
  gxDps := a.gxDps
  gyDps := a.gyDps
  gzDps := a.gzDps
  axG := a.axG
  ayG := a.ayG
  azG := a.azG
  ready := a.ready
  valid := a.pitchDeg ≠ 0 && a.rollDeg ≠ 0 && a.yawDeg ≠ 0 && a.gxDps ≠ 0 && a.gyDps ≠ 0 &&
    a.gzDps ≠ 0 && a.axG ≠ 0 && a.ayG ≠ 0 && a.azG ≠ 0 && a.ready ≠ 0

/-- The parts of the format of `emit_imu` between its commas. -/
def imuFields (m : Memory) (tsMs : UInt32) (sImu : TelemetryImuBind) : List (List Char) :=
  [['$', 'I'],
    printUnsigned tsMs.toNat,
    printFixed 3 (m.float sImu.pitchDeg),
    printFixed 3 (m.float sImu.rollDeg),
    printFixed 3 (m.float sImu.yawDeg),
    printFixed 3 (m.float sImu.gxDps),
    printFixed 3 (m.float sImu.gyDps),
    printFixed 3 (m.float sImu.gzDps),
    printFixed 4 (m.float sImu.axG),
    printFixed 4 (m.float sImu.ayG),
    printFixed 4 (m.float sImu.azG),
    printUnsigned (m.byte sImu.ready).toNat]

/-- `emit_imu`: the text it prints, if it prints one. -/
def emitImu (m : Memory) (tsMs : UInt32) (sImu : TelemetryImuBind) : Option (List Char) :=
  if !sImu.valid then none
  else some ([','].intercalate (imuFields m tsMs sImu) ++ ['\r', '\n'])

/-- `vsnprintf`: what a buffer of `size` bytes and the memory behind it hold afterwards, of which
`memory` is what they held before. -/
def vsnprintf (size : ℕ) (memory : ℕ → UInt8) (text : List UInt8) (i : ℕ) : UInt8 :=
  let stored := text.take (size - 1)
  if h : i < stored.length then stored[i]
  else if i = stored.length then 0
  else memory i

/-- `BSP_Uart_Printf`: the bytes that `BSP_Uart_Send` is given. -/
def bspUartPrintf (memory : ℕ → UInt8) (text : List UInt8) : List UInt8 :=
  let n := text.length
  if n > 0 then (List.range (n % 2 ^ 16)).map (vsnprintf 256 memory text) else []

/-- What `parse_imu_line` returns. -/
structure ImuSample where
  tsMs : ℤ
  pitchDeg : Binary64
  rollDeg : Binary64
  yawDeg : Binary64
  gxDps : Binary64
  gyDps : Binary64
  gzDps : Binary64
  axG : Binary64
  ayG : Binary64
  azG : Binary64
  accelNormG : Binary64
  ready : ℤ
  rawLine : List Char

/-- `parse_imu_line`. The root of the sum of squares is given from outside; as the sum is not
negative it raises no `ValueError`. -/
def parseImuLine (accelNorm : Binary64 → Binary64 → Binary64 → Binary64) (line : List Char) :
    Option ImuSample :=
  if !(['$', 'I', ','].isPrefixOf line) then none
  else
    match line.splitOn ',' with
    | _ :: tsMs :: pitchDeg :: rollDeg :: yawDeg :: gxDps :: gyDps :: gzDps :: axG :: ayG :: azG ::
        ready :: _ => do
      let ax ← pyFloat axG
      let ay ← pyFloat ayG
      let az ← pyFloat azG
      return {
        tsMs := ← pyInt tsMs
        pitchDeg := ← pyFloat pitchDeg
        rollDeg := ← pyFloat rollDeg
        yawDeg := ← pyFloat yawDeg
        gxDps := ← pyFloat gxDps
        gyDps := ← pyFloat gyDps
        gzDps := ← pyFloat gzDps
        axG := ax
        ayG := ay
        azG := az
        accelNormG := accelNorm ax ay az
        ready := ← pyInt ready
        rawLine := line }
    | _ => none

/-- What the loop of the tool makes of the bytes of a line. -/
def capture (accelNorm : Binary64 → Binary64 → Binary64 → Binary64) (raw : List UInt8) :
    Option ImuSample :=
  parseImuLine accelNorm (strip (decodeAscii raw))

/-! ### What it is to be read back -/

/-- The addresses of the numbers. -/
def ImuArgs.floats (a : ImuArgs) : List ℕ :=
  [a.pitchDeg, a.rollDeg, a.yawDeg, a.gxDps, a.gyDps, a.gzDps, a.axG, a.ayG, a.azG]

/-- A number is returned within half a unit of the last decimal. -/
def HalfUnit (decimals : ℕ) (x : Binary32) (r : Binary64) : Prop :=
  ∃ y : ℚ, r = .finite y ∧ |y - x.toRat| ≤ 1 / (2 * 10 ^ decimals)

/-- A number is returned within half a unit of the last decimal, unless it lies halfway between
two decimals. Then one of these is returned, up to the precision of a double. -/
def HalfUnitUnlessMiddle (decimals : ℕ) (x : Binary32) (r : Binary64) : Prop :=
  ∃ y : ℚ, r = .finite y ∧ (|y - x.toRat| ≤ 1 / (2 * 10 ^ decimals) ∨
    ∃ n : ℤ, |n / 10 ^ decimals - x.toRat| = 1 / (2 * 10 ^ decimals) ∧
      |y - n / 10 ^ decimals| ≤ |(n / 10 ^ decimals : ℚ)| / 2 ^ 53)

/-- A sample has what was bound under the names of what was bound. -/
structure SampleOf (close : ℕ → Binary32 → Binary64 → Prop) (m : Memory) (tsMs : UInt32)
    (a : ImuArgs) (sample : ImuSample) : Prop where
  tsMs : sample.tsMs = tsMs.toNat
  pitchDeg : close 3 (m.float a.pitchDeg) sample.pitchDeg
  rollDeg : close 3 (m.float a.rollDeg) sample.rollDeg
  yawDeg : close 3 (m.float a.yawDeg) sample.yawDeg
  gxDps : close 3 (m.float a.gxDps) sample.gxDps
  gyDps : close 3 (m.float a.gyDps) sample.gyDps
  gzDps : close 3 (m.float a.gzDps) sample.gzDps
  axG : close 4 (m.float a.axG) sample.axG
  ayG : close 4 (m.float a.ayG) sample.ayG
  azG : close 4 (m.float a.azG) sample.azG
  ready : sample.ready = (m.byte a.ready).toNat

/-- A line is printed. With numbers below a million it fits the buffer, and is sent as it is; and
the tool accepts it and gets a sample of what was bound. -/
def ReadsBack (close : ℕ → Binary32 → Binary64 → Prop) (m : Memory) (tsMs : UInt32)
    (a : ImuArgs) : Prop :=
  ∃ text, emitImu m tsMs (telemetryBindImu a) = some text ∧
    ((∀ p ∈ a.floats, |(m.float p).toRat| < 10 ^ 6) →
      text.length ≤ 255 ∧
        ∀ memory, bspUartPrintf memory (encodeAscii text) = encodeAscii text) ∧
    ∀ accelNorm, ∃ sample, capture accelNorm (encodeAscii text) = some sample ∧
      SampleOf close m tsMs a sample

/-! ### The sender -/

/-- A text that fits the buffer is sent as it is. -/
theorem bspUartPrintf_of_length_le {text : List UInt8} (h : text.length ≤ 255)
    (memory : ℕ → UInt8) : bspUartPrintf memory text = text := by
  have htake : text.take 255 = text := List.take_of_length_le h
  have hmod : text.length % 2 ^ 16 = text.length := Nat.mod_eq_of_lt (by omega)
  simp only [bspUartPrintf, hmod]
  split_ifs with hpos
  · apply List.ext_getElem
    · rw [List.length_map, List.length_range]
    · intro i hi htext
      rw [List.getElem_map, List.getElem_range]
      simp only [vsnprintf, Nat.add_one_sub_one, htake, htext, dite_true]
  · exact (List.eq_nil_of_length_eq_zero (by omega)).symm

section Line

variable {m : Memory} {tsMs : UInt32} {a : ImuArgs}

theorem emitImu_of_valid (hbound : (telemetryBindImu a).valid = true) :
    emitImu m tsMs (telemetryBindImu a) =
      some ([','].intercalate (imuFields m tsMs (telemetryBindImu a)) ++ ['\r', '\n']) := by
  rw [emitImu, hbound]
  rfl

theorem plain_imuFields (hfinite : ∀ p ∈ a.floats, (m.float p).Finite) :
    ∀ field ∈ imuFields m tsMs (telemetryBindImu a), ∀ c ∈ field, Plain c := by
  simp only [ImuArgs.floats, List.forall_mem_cons] at hfinite
  obtain ⟨hpitch, hroll, hyaw, hgx, hgy, hgz, hax, hay, haz, -⟩ := hfinite
  have hdollar : Plain '$' := by decide
  have hletter : Plain 'I' := by decide
  simp only [imuFields, telemetryBindImu, List.forall_mem_cons]
  exact ⟨⟨hdollar, hletter, List.forall_mem_nil _⟩, plain_printUnsigned _, plain_printFixed hpitch,
    plain_printFixed hroll, plain_printFixed hyaw, plain_printFixed hgx, plain_printFixed hgy,
    plain_printFixed hgz, plain_printFixed hax, plain_printFixed hay, plain_printFixed haz,
    plain_printUnsigned _, List.forall_mem_nil _⟩

/-- The line without its end. -/
theorem capture_encodeAscii (hfinite : ∀ p ∈ a.floats, (m.float p).Finite)
    (accelNorm : Binary64 → Binary64 → Binary64 → Binary64) :
    capture accelNorm (encodeAscii
        ([','].intercalate (imuFields m tsMs (telemetryBindImu a)) ++ ['\r', '\n'])) =
      parseImuLine accelNorm ([','].intercalate (imuFields m tsMs (telemetryBindImu a))) := by
  have hplain : ∀ c ∈ [','].intercalate (imuFields m tsMs (telemetryBindImu a)),
      c = ',' ∨ Plain c := by
    intro c hc
    rcases mem_intercalate hc with hcomma | ⟨field, hfield, hc⟩
    · exact Or.inl hcomma
    · exact Or.inr (plain_imuFields hfinite field hfield c hc)
  have hends : ∀ c ∈ ['\r', '\n'], c.toNat < 128 := by
    rw [List.forall_mem_cons, List.forall_mem_singleton]
    decide
  have hascii : ∀ c ∈ [','].intercalate (imuFields m tsMs (telemetryBindImu a)) ++ ['\r', '\n'],
      c.toNat < 128 := by
    intro c hc
    rcases List.mem_append.mp hc with hline | hend
    · rcases hplain c hline with rfl | hc
      · decide
      · exact hc.ascii
    · exact hends c hend
  have hspace : ∀ c ∈ [','].intercalate (imuFields m tsMs (telemetryBindImu a)),
      isPySpace c = false := by
    intro c hc
    rcases hplain c hc with rfl | hc
    · decide
    · exact hc.pySpace
  rw [capture, decodeAscii_encodeAscii hascii, strip_append_lineEnd _ hspace]
  rw [imuFields, List.intercalate_cons_cons]
  exact List.cons_ne_nil _ _

/-- What the tool makes of a line, the double nearest to each number that is printed. -/
def readSample (m : Memory) (tsMs : UInt32) (a : ImuArgs)
    (accelNorm : Binary64 → Binary64 → Binary64 → Binary64) : ImuSample :=
  let ax := Binary64.ofRat (printedValue 4 (m.float a.axG))
  let ay := Binary64.ofRat (printedValue 4 (m.float a.ayG))
  let az := Binary64.ofRat (printedValue 4 (m.float a.azG))
  { tsMs := tsMs.toNat
    pitchDeg := Binary64.ofRat (printedValue 3 (m.float a.pitchDeg))
    rollDeg := Binary64.ofRat (printedValue 3 (m.float a.rollDeg))
    yawDeg := Binary64.ofRat (printedValue 3 (m.float a.yawDeg))
    gxDps := Binary64.ofRat (printedValue 3 (m.float a.gxDps))
    gyDps := Binary64.ofRat (printedValue 3 (m.float a.gyDps))
    gzDps := Binary64.ofRat (printedValue 3 (m.float a.gzDps))
    axG := ax
    ayG := ay
    azG := az
    accelNormG := accelNorm ax ay az
    ready := (m.byte a.ready).toNat
    rawLine := [','].intercalate (imuFields m tsMs (telemetryBindImu a)) }

theorem parseImuLine_intercalate (hfinite : ∀ p ∈ a.floats, (m.float p).Finite)
    (accelNorm : Binary64 → Binary64 → Binary64 → Binary64) :
    parseImuLine accelNorm ([','].intercalate (imuFields m tsMs (telemetryBindImu a))) =
      some (readSample m tsMs a accelNorm) := by
  have hprefix : ['$', 'I', ','].isPrefixOf
      ([','].intercalate (imuFields m tsMs (telemetryBindImu a))) = true := by
    rw [imuFields, List.intercalate_cons_cons]
    rfl
  have hsplit : ([','].intercalate (imuFields m tsMs (telemetryBindImu a))).splitOn ',' =
      imuFields m tsMs (telemetryBindImu a) := by
    apply List.splitOn_intercalate
    · intro field hfield hmem
      exact (plain_imuFields hfinite field hfield ',' hmem).comma rfl
    · exact List.cons_ne_nil _ _
  have hint : ∀ n < 2 ^ 32, pyInt (printUnsigned n) = some (n : ℤ) := by
    intro n hn
    apply pyInt_printUnsigned
    calc n < 2 ^ 32 := hn
      _ ≤ 10 ^ 10 := by decide
      _ ≤ 10 ^ maxStrDigits := Nat.pow_le_pow_right (by decide) (by decide)
  have hready : (m.byte a.ready).toNat < 2 ^ 32 :=
    (m.byte a.ready).toNat_lt.trans (by decide)
  simp only [ImuArgs.floats, List.forall_mem_cons] at hfinite
  obtain ⟨hpitch, hroll, hyaw, hgx, hgy, hgz, hax, hay, haz, -⟩ := hfinite
  have hthree := fun {x : Binary32} (hx : x.Finite) => @pyFloat_printFixed 3 (by decide) x hx
  have hfour := fun {x : Binary32} (hx : x.Finite) => @pyFloat_printFixed 4 (by decide) x hx
  rw [parseImuLine, hprefix, hsplit]
  simp only [imuFields, telemetryBindImu, hthree hpitch, hthree hroll, hthree hyaw, hthree hgx,
    hthree hgy, hthree hgz, hfour hax, hfour hay, hfour haz, hint _ tsMs.toNat_lt, hint _ hready]
  rfl

theorem length_line_le (hfinite : ∀ p ∈ a.floats, (m.float p).Finite)
    (hbelow : ∀ p ∈ a.floats, |(m.float p).toRat| < 10 ^ 6) :
    ([','].intercalate (imuFields m tsMs (telemetryBindImu a)) ++ ['\r', '\n']).length ≤ 255 := by
  have hnumber : ∀ p ∈ a.floats, (printFixed 3 (m.float p)).length ≤ 12 ∧
      (printFixed 4 (m.float p)).length ≤ 13 := by
    intro p hp
    have hle : (m.float p).magnitude ≤ 10 ^ 6 := Binary32.abs_toRat _ ▸ (hbelow p hp).le
    exact ⟨length_printFixed_le (hfinite p hp) (by decide) hle,
      length_printFixed_le (hfinite p hp) (by decide) hle⟩
  have hunsigned : ∀ n < 2 ^ 32, (printUnsigned n).length ≤ 10 := fun n hn =>
    (Nat.length_toDigits_le_iff (by decide) (by decide)).mpr (hn.trans (by decide))
  have hts := hunsigned _ tsMs.toNat_lt
  have hready := hunsigned (m.byte a.ready).toNat ((m.byte a.ready).toNat_lt.trans (by decide))
  have hline := length_intercalate_le ',' (imuFields m tsMs (telemetryBindImu a))
  simp only [ImuArgs.floats, List.forall_mem_cons] at hnumber
  obtain ⟨hpitch, hroll, hyaw, hgx, hgy, hgz, hax, hay, haz, -⟩ := hnumber
  simp only [imuFields, telemetryBindImu, List.map_cons, List.map_nil, List.sum_cons,
    List.sum_nil, List.length_cons, List.length_nil] at hline
  simp only [imuFields, telemetryBindImu, List.length_append, List.length_cons, List.length_nil]
  omega

end Line

/-! ### Reading back -/

theorem halfUnitUnlessMiddle_ofRat {decimals : ℕ} (h : decimals ≤ 12) (x : Binary32) :
    HalfUnitUnlessMiddle decimals x (Binary64.ofRat (printedValue decimals x)) := by
  obtain ⟨hfinite, hround⟩ := ofRat_printedValue_eq decimals x (by omega)
  refine ⟨_, hfinite, ?_⟩
  rcases abs_roundFloat_printedValue_sub_le decimals x h with hclose | hmiddle
  · exact Or.inl hclose
  · obtain ⟨n, hn⟩ := exists_eq_printedValue decimals x
    refine Or.inr ⟨n, ?_, ?_⟩
    · rw [hn, hmiddle]
    · rw [hn]
      exact hround

/-- What is bound is read back. -/
theorem readsBack_halfUnitUnlessMiddle (m : Memory) (tsMs : UInt32) (a : ImuArgs)
    (hbound : (telemetryBindImu a).valid = true)
    (hfinite : ∀ p ∈ a.floats, (m.float p).Finite) : ReadsBack HalfUnitUnlessMiddle m tsMs a := by
  have hthree := @halfUnitUnlessMiddle_ofRat 3 (by decide)
  have hfour := @halfUnitUnlessMiddle_ofRat 4 (by decide)
  refine ⟨_, emitImu_of_valid hbound, ?_, ?_⟩
  · intro hbelow
    refine ⟨length_line_le hfinite hbelow, bspUartPrintf_of_length_le ?_⟩
    rw [encodeAscii, List.length_map]
    exact length_line_le hfinite hbelow
  · intro accelNorm
    refine ⟨readSample m tsMs a accelNorm, ?_, ?_⟩
    · rw [capture_encodeAscii hfinite, parseImuLine_intercalate hfinite]
    · exact ⟨rfl, hthree _, hthree _, hthree _, hthree _, hthree _, hthree _, hfour _, hfour _,
        hfour _, rfl⟩

/-- A memory with one number in all places. -/
def constantMemory (x : Binary32) : Memory := ⟨fun _ => x, fun _ => 1⟩

/-- Addresses that are not null. -/
def someArgs : ImuArgs := ⟨1, 2, 3, 4, 5, 6, 7, 8, 9, 10⟩

theorem finite_constantMemory {x : Binary32} (hx : x.Finite) (a : ImuArgs) :
    ∀ p ∈ a.floats, ((constantMemory x).float p).Finite := fun _ _ => hx

theorem readsBack_negative : ReadsBack HalfUnitUnlessMiddle (constantMemory ⟨true, 130, 12345⟩)
    4294967295 someArgs :=
  readsBack_halfUnitUnlessMiddle _ _ someArgs (by decide)
    (finite_constantMemory (by decide) someArgs)

/-- One sixteenth is printed as 0.062, and the double nearest to that is below it. -/
theorem not_readsBack_halfUnit : ¬ ∀ (m : Memory) (tsMs : UInt32) (a : ImuArgs),
    (telemetryBindImu a).valid = true → (∀ p ∈ a.floats, (m.float p).Finite) →
      ReadsBack HalfUnit m tsMs a := by
  intro h
  have hbound : (telemetryBindImu someArgs).valid = true := by decide
  have hfinite := finite_constantMemory (x := ⟨false, 123, 0⟩) (by decide) someArgs
  obtain ⟨text, htext, -, hread⟩ := h (constantMemory ⟨false, 123, 0⟩) 0 someArgs hbound hfinite
  obtain ⟨sample, hsample, hof⟩ := hread fun ax _ _ => ax
  rw [emitImu_of_valid hbound] at htext
  obtain rfl := Option.some.inj htext
  rw [capture_encodeAscii hfinite, parseImuLine_intercalate hfinite] at hsample
  obtain rfl := Option.some.inj hsample
  obtain ⟨y, hy, hle⟩ := hof.pitchDeg
  have hdouble : Binary64.ofRat (printedValue 3 ⟨false, 123, 0⟩) =
      .finite (8935141660703064 / 2 ^ 57) := by decide +kernel
  have hvalue : (Binary32.mk false 123 0).toRat = 1 / 16 := by decide +kernel
  have hsame : y = 8935141660703064 / 2 ^ 57 := Binary64.finite.inj (hy.symm.trans hdouble)
  have hfar : (1 : ℚ) / (2 * 10 ^ 3) < |8935141660703064 / 2 ^ 57 - 1 / 16| := by
    rw [abs_of_neg] <;> norm_num
  refine absurd hle (not_le.mpr ?_)
  rw [hsame]
  show (1 : ℚ) / (2 * 10 ^ 3) < |_ - (Binary32.mk false 123 0).toRat|
  rw [hvalue]
  exact hfar

end NuedcFirmware.Modules.ImuTelemetry
