import NuedcFirmware.Lib.CutText
import NuedcFirmware.Modules.ImuTelemetry
import NuedcFirmware.Modules.Telemetry
import Mathlib.Algebra.Order.BigOperators.Group.List

/-!
Everything that `telemetry.c` sends: the three status lines and the replies to commands.

Each of them is a line with a dollar sign at its beginning and nowhere else (`Body`), and fits the
buffer it is printed into. Only the line of the IMU has an `I` behind the dollar sign.
-/

namespace NuedcFirmware.Modules.TelemetryOutput

open NuedcFirmware.Lib ImuTelemetry

/-! ### What is sent -/

/-- What the addresses of the program hold; of the buffer of `BSP_Uart_Printf` and the memory
behind it, what is there before the line is printed. -/
structure Program extends Memory where
  half : ℕ → UInt16
  buf : ℕ → UInt8

/-- The arguments of `Telemetry_BindChassis`. -/
structure ChassisArgs where
  state : ℕ
  xCm : ℕ
  yCm : ℕ
  thetaRad : ℕ
  targetL : ℕ
  targetR : ℕ
  measL : ℕ
  measR : ℕ
  lineTurn : ℕ

/-- `TelemetryChassisBind_t`. -/
structure TelemetryChassisBind extends ChassisArgs where
  valid : Bool

/-- `Telemetry_BindChassis`, which sets all of `s_chassis`. -/
def telemetryBindChassis (a : ChassisArgs) : TelemetryChassisBind where
  toChassisArgs := a
  valid := a.state ≠ 0 && a.xCm ≠ 0 && a.yCm ≠ 0 && a.thetaRad ≠ 0 && a.targetL ≠ 0 &&
    a.targetR ≠ 0 && a.measL ≠ 0 && a.measR ≠ 0 && a.lineTurn ≠ 0

/-- The arguments of `Telemetry_BindLine`. -/
structure LineArgs where
  raw : ℕ
  rawCount : UInt8
  contrast : ℕ
  strength : ℕ
  bias : ℕ
  onLine : ℕ

/-- `TelemetryLineBind_t`. -/
structure TelemetryLineBind extends LineArgs where
  valid : Bool

/-- `Telemetry_BindLine`, which sets all of `s_line`. -/
def telemetryBindLine (a : LineArgs) : TelemetryLineBind where
  toLineArgs := a
  valid := a.raw ≠ 0 && 0 < a.rawCount && a.contrast ≠ 0 && a.strength ≠ 0 && a.bias ≠ 0 &&
    a.onLine ≠ 0

/-- `DEG_PER_RAD`. -/
def degPerRad : Binary32 := ⟨false, ⟨132, by decide⟩, ⟨6631137, by decide⟩⟩

/-- A line of fields. -/
def line (fields : List (List Char)) : List Char := [','].intercalate fields ++ ['\r', '\n']

section Emit

-- the product of two floats is given from outside
variable (mul : Binary32 → Binary32 → Binary32) (p : Program) (tsMs : UInt32)

/-- The floats of the chassis line, with two decimals and with three. -/
def chassisFloats (s : TelemetryChassisBind) : List Binary32 × List Binary32 :=
  ([p.float s.xCm, p.float s.yCm, mul (p.float s.thetaRad) degPerRad],
    [p.float s.targetL, p.float s.targetR, p.float s.measL, p.float s.measR, p.float s.lineTurn])

def chassisFields (s : TelemetryChassisBind) : List (List Char) :=
  [['$', 'S'], printUnsigned tsMs.toNat, printUnsigned (p.byte s.state).toNat] ++
    (chassisFloats mul p s).1.map (printFixed 2) ++ (chassisFloats mul p s).2.map (printFixed 3)

/-- `emit_chassis`. -/
def emitChassis (s : TelemetryChassisBind) : Option (List Char) :=
  if !s.valid then none else some (line (chassisFields mul p tsMs s))

def lineFields (s : TelemetryLineBind) (count : ℕ) : List (List Char) :=
  [['$', 'L'], printUnsigned tsMs.toNat, printFixed 3 (p.float s.bias),
      printUnsigned (p.half s.contrast).toNat, printUnsigned (p.half s.strength).toNat,
      printUnsigned (p.byte s.onLine).toNat] ++
    (List.range count).map fun i => printUnsigned (p.half (s.raw + 2 * i)).toNat

/-- `emit_line`. -/
def emitLine (s : TelemetryLineBind) : Option (List Char) :=
  if !s.valid || s.rawCount < 7 then none
  else if s.rawCount ≥ 8 then some (line (lineFields p tsMs s 8))
  else some (line (lineFields p tsMs s 7))

end Emit

/-! ### The form of a line -/

/-- A character behind the dollar sign of a line and before its end. -/
@[mk_iff]
structure Inner (c : Char) : Prop where
  ascii : c.toNat < 128
  dollar : c ≠ '$'
  lineFeed : c ≠ '\n'

instance (c : Char) : Decidable (Inner c) := decidable_of_iff' _ (inner_iff c)

/-- What stands between the dollar sign of a line and its end. -/
@[mk_iff]
structure Body (s : List Char) : Prop where
  inner : ∀ c ∈ s, Inner c
  short : s.length ≤ 252

instance (s : List Char) : Decidable (Body s) :=
  decidable_of_iff (s.all (Inner ·) = true ∧ s.length ≤ 252) (by simp [body_iff])

/-- The line of a body. -/
def sent (body : List Char) : List Char := '$' :: body ++ ['\r', '\n']

theorem inner_of_isDigit {c : Char} (h : c.isDigit) : Inner c := by
  have hplain := plain_of_isDigit h
  refine ⟨hplain.ascii, ?_, ?_⟩
  · rintro rfl
    exact absurd h (by decide)
  · rintro rfl
    exact absurd h (by decide)

/-- A field of a line. -/
@[mk_iff]
structure Field (s : List Char) : Prop where
  inner : ∀ c ∈ s, Inner c
  short : s.length ≤ 13

instance (s : List Char) : Decidable (Field s) :=
  decidable_of_iff (s.all (Inner ·) = true ∧ s.length ≤ 13) (by simp [field_iff])

theorem field_printUnsigned {n : ℕ} (h : n < 2 ^ 32) : Field (printUnsigned n) where
  inner := fun _ hc => inner_of_isDigit (Nat.isDigit_of_mem_toDigits (by decide) le_rfl hc)
  short := (Nat.length_toDigits_le_iff (by decide) (by decide)).mpr (h.trans (by decide))

/-- A number below a million. -/
structure Presentable (x : Binary32) : Prop where
  finite : x.Finite
  below : |x.toRat| < 10 ^ 6

theorem field_printFixed (decimals : ℕ) (hpos : 0 < decimals) (hle : decimals ≤ 4) {x : Binary32}
    (h : Presentable x) : Field (printFixed decimals x) where
  inner := by
    intro c hc
    rcases mem_printFixed h.finite hc with hdigit | rfl | rfl
    · exact inner_of_isDigit hdigit
    · decide
    · decide
  short := by
    have hmagnitude : x.magnitude ≤ 10 ^ 6 := Binary32.abs_toRat _ ▸ h.below.le
    have := length_printFixed_le h.finite hpos hmagnitude
    omega

/-- The name of a line and up to thirteen fields behind it. -/
theorem exists_body_of_fields (name : Char) (hname : Inner name) {fields : List (List Char)}
    (hfields : ∀ field ∈ fields, Field field) (hcount : fields.length ≤ 13) :
    ∃ body, Body (name :: body) ∧ line (['$', name] :: fields) = sent (name :: body) := by
  refine ⟨(fields.map (',' :: ·)).flatten, ⟨?_, ?_⟩, ?_⟩
  · intro c hc
    rcases List.mem_cons.mp hc with rfl | hc
    · exact hname
    · obtain ⟨part, hpart, hc⟩ := List.mem_flatten.mp hc
      obtain ⟨field, hfield, rfl⟩ := List.mem_map.mp hpart
      rcases List.mem_cons.mp hc with rfl | hc
      · decide
      · exact (hfields field hfield).inner c hc
  · have hsum := List.sum_le_card_nsmul ((fields.map (',' :: ·)).map List.length) 14 (by
      intro n hn
      rw [List.map_map] at hn
      obtain ⟨field, hfield, rfl⟩ := List.mem_map.mp hn
      exact Nat.succ_le_succ (hfields field hfield).short)
    rw [List.length_map, List.length_map, smul_eq_mul] at hsum
    rw [List.length_cons, List.length_flatten]
    omega
  · rw [line, intercalate_cons_eq_append_flatten, sent]
    rfl

/-! ### The status lines -/

/-- What the program binds. -/
structure Bindings where
  chassis : ChassisArgs
  line : LineArgs
  imu : ImuArgs

section Status

variable (mul : Binary32 → Binary32 → Binary32) (b : Bindings) (p : Program) (tsMs : UInt32)

/-- The text of a status line, if it is printed. -/
def emit : StatusLine → Option (List Char)
  | .chassis => emitChassis mul p tsMs (telemetryBindChassis b.chassis)
  | .line => emitLine p tsMs (telemetryBindLine b.line)
  | .imu => emitImu p.toMemory tsMs (telemetryBindImu b.imu)

/-- The floats that are shown. -/
def shown : List Binary32 :=
  (chassisFloats mul p (telemetryBindChassis b.chassis)).1 ++
    (chassisFloats mul p (telemetryBindChassis b.chassis)).2 ++ [p.float b.line.bias] ++
    b.imu.floats.map p.float

/-- The numbers are below a million, and the flag is a digit. -/
structure Showable : Prop where
  float : ∀ x ∈ shown mul b p, Presentable x
  ready : (p.byte b.imu.ready).toNat < 10

variable {mul b p}

theorem Showable.imu (h : Showable mul b p) : ∀ a ∈ b.imu.floats, Presentable (p.float a) :=
  fun _ ha => h.float _ (List.mem_append_right _ (List.mem_map_of_mem ha))

theorem imu_line (h : Showable mul b p) :
    ∃ body, Body ('I' :: body) ∧
      line (imuFields p.toMemory tsMs (telemetryBindImu b.imu)) = sent ('I' :: body) := by
  have hfloat := h.imu
  simp only [ImuArgs.floats, List.forall_mem_cons] at hfloat
  obtain ⟨hpitch, hroll, hyaw, hgx, hgy, hgz, hax, hay, haz, -⟩ := hfloat
  have hthree := @field_printFixed 3 (by decide) (by decide)
  have hfour := @field_printFixed 4 (by decide) (by decide)
  refine exists_body_of_fields 'I' (by decide) ?_ (by decide : 11 ≤ 13)
  simp only [List.forall_mem_cons]
  exact ⟨field_printUnsigned tsMs.toNat_lt, hthree hpitch, hthree hroll, hthree hyaw, hthree hgx,
    hthree hgy, hthree hgz, hfour hax, hfour hay, hfour haz,
    field_printUnsigned ((UInt8.toNat_lt _).trans (by decide)), List.forall_mem_nil _⟩

theorem chassis_line (h : Showable mul b p) :
    ∃ body, Body ('S' :: body) ∧
      line (chassisFields mul p tsMs (telemetryBindChassis b.chassis)) = sent ('S' :: body) := by
  have hfields : ∀ field ∈
      (chassisFields mul p tsMs (telemetryBindChassis b.chassis)).tail, Field field := by
    intro field hfield
    simp only [chassisFields, List.cons_append, List.nil_append, List.tail_cons, List.mem_append,
      List.mem_cons, List.mem_map] at hfield
    rcases hfield with rfl | rfl | ⟨x, hx, rfl⟩ | ⟨x, hx, rfl⟩
    · exact field_printUnsigned tsMs.toNat_lt
    · exact field_printUnsigned ((UInt8.toNat_lt _).trans (by decide))
    · exact field_printFixed 2 (by decide) (by decide)
        (h.float x (by simp only [shown, List.mem_append]; tauto))
    · exact field_printFixed 3 (by decide) (by decide)
        (h.float x (by simp only [shown, List.mem_append]; tauto))
  exact exists_body_of_fields 'S' (by decide) hfields (by decide : 10 ≤ 13)

theorem line_line (h : Showable mul b p) {count : ℕ} (hcount : count ≤ 8) :
    ∃ body, Body ('L' :: body) ∧
      line (lineFields p tsMs (telemetryBindLine b.line) count) = sent ('L' :: body) := by
  have hfields : ∀ field ∈ (lineFields p tsMs (telemetryBindLine b.line) count).tail,
      Field field := by
    intro field hfield
    simp only [lineFields, List.cons_append, List.nil_append, List.tail_cons, List.mem_cons,
      List.mem_map] at hfield
    rcases hfield with rfl | rfl | rfl | rfl | rfl | ⟨i, -, rfl⟩
    · exact field_printUnsigned tsMs.toNat_lt
    · refine field_printFixed 3 (by decide) (by decide) (h.float _ ?_)
      simp only [shown, List.mem_append, List.mem_singleton]
      exact Or.inl (Or.inr rfl)
    · exact field_printUnsigned ((UInt16.toNat_lt _).trans (by decide))
    · exact field_printUnsigned ((UInt16.toNat_lt _).trans (by decide))
    · exact field_printUnsigned ((UInt8.toNat_lt _).trans (by decide))
    · exact field_printUnsigned ((UInt16.toNat_lt _).trans (by decide))
  have hlength : (lineFields p tsMs (telemetryBindLine b.line) count).tail.length ≤ 13 := by
    simp only [lineFields, List.cons_append, List.nil_append, List.tail_cons, List.length_cons,
      List.length_map, List.length_range]
    omega
  exact exists_body_of_fields 'L' (by decide) hfields hlength

/-- The line of a kind, and which of them the `I` names. -/
theorem emit_eq_some {tsMs : UInt32} (h : Showable mul b p) {kind : StatusLine} {text : List Char}
    (hemit : emit mul b p tsMs kind = some text) :
    ∃ name body, Body (name :: body) ∧ text = sent (name :: body) ∧ (name = 'I' ↔ kind = .imu) := by
  cases kind with
  | chassis =>
      simp only [emit, emitChassis, Option.ite_none_left_eq_some, Option.some.injEq] at hemit
      obtain ⟨-, rfl⟩ := hemit
      obtain ⟨body, hbody, htext⟩ := chassis_line tsMs h
      exact ⟨'S', body, hbody, htext, by decide⟩
  | line =>
      simp only [emit, emitLine, Option.ite_none_left_eq_some] at hemit
      obtain ⟨-, hemit⟩ := hemit
      split_ifs at hemit
      · obtain rfl := Option.some.inj hemit
        obtain ⟨body, hbody, htext⟩ := line_line tsMs h (le_refl 8)
        exact ⟨'L', body, hbody, htext, by decide⟩
      · obtain rfl := Option.some.inj hemit
        obtain ⟨body, hbody, htext⟩ := line_line tsMs h (Nat.le_succ 7)
        exact ⟨'L', body, hbody, htext, by decide⟩
  | imu =>
      simp only [emit, emitImu, Option.ite_none_left_eq_some, Option.some.injEq] at hemit
      obtain ⟨-, rfl⟩ := hemit
      obtain ⟨body, hbody, htext⟩ := imu_line tsMs h
      exact ⟨'I', body, hbody, htext, by decide⟩

end Status

/-! ### The replies -/

/-- A line that is not named by an `I`. -/
def Reply (r : String) : Prop :=
  ∃ name body, name ≠ 'I' ∧ Body (name :: body) ∧ r.toList = sent (name :: body)

theorem field_toString_nat {n : ℕ} (h : n < 2 ^ 32) : Field (toString n).toList := by
  have htext : (toString n).toList = printUnsigned n := String.toList_ofList
  exact htext ▸ field_printUnsigned h

theorem field_toString_int {n : ℤ} (h : n.natAbs < 2 ^ 32) : Field (toString n).toList := by
  cases n with
  | ofNat n => exact field_toString_nat h
  | negSucc n =>
      have htext : (toString (Int.negSucc n)).toList = '-' :: printUnsigned (n + 1) := by
        show ("-" ++ Nat.repr (n + 1)).toList = _
        rw [String.toList_append]
        exact congrArg ('-' :: ·) String.toList_ofList
      have hlength : (printUnsigned (n + 1)).length ≤ 10 :=
        (Nat.length_toDigits_le_iff (by decide) (by decide)).mpr (h.trans (by decide))
      rw [htext]
      refine ⟨?_, Nat.succ_le_succ (hlength.trans (by decide))⟩
      intro c hc
      rcases List.mem_cons.mp hc with rfl | hc
      · decide
      · exact (field_printUnsigned h).inner c hc

/-- A reply that shows numbers. -/
theorem reply_of_fields (name : Char) (hI : name ≠ 'I') (hname : Inner name)
    (fields : List (List Char)) (hfields : ∀ field ∈ fields, Field field)
    (hcount : fields.length ≤ 19) {r : String}
    (htext : r.toList = sent (name :: fields.flatten)) : Reply r := by
  refine ⟨name, fields.flatten, hI, ⟨?_, ?_⟩, htext⟩
  · intro c hc
    rcases List.mem_cons.mp hc with rfl | hc
    · exact hname
    · obtain ⟨field, hfield, hc⟩ := List.mem_flatten.mp hc
      exact (hfields field hfield).inner c hc
  · have hsum := List.sum_le_card_nsmul (fields.map List.length) 13 (by
      intro n hn
      obtain ⟨field, hfield, rfl⟩ := List.mem_map.mp hn
      exact (hfields field hfield).short)
    rw [List.length_map, smul_eq_mul] at hsum
    rw [List.length_cons, List.length_flatten]
    omega

theorem reply_flag (name : Char) (body : List Char) {before : String} (hI : name ≠ 'I')
    (hbefore : before.toList = '$' :: name :: body) (hbody : Body (name :: (body ++ ['0', '1'])))
    (on : Bool) : Reply (before ++ printFlag on ++ "\r\n") := by
  have htext : (before ++ printFlag on ++ "\r\n").toList =
      sent (name :: (body ++ [if on then '1' else '0'])) := by
    rw [String.toList_append, String.toList_append, hbefore, sent]
    cases on <;> simp [printFlag]
  refine ⟨name, _, hI, ⟨?_, ?_⟩, htext⟩
  · intro c hc
    apply hbody.inner c
    cases on <;> simp at hc ⊢ <;> tauto
  · have := hbody.short
    simp only [List.length_cons, List.length_append, List.length_nil] at this ⊢
    omega

theorem reply_of_literal {r : String} (name : Char) (body : String)
    (h : name ≠ 'I' ∧ Body (name :: body.toList) ∧ r.toList = sent (name :: body.toList)) :
    Reply r :=
  ⟨name, body.toList, h⟩

theorem natAbs_toInt16_lt (x : ℤ) : (toInt16 x).natAbs < 2 ^ 32 := by
  have hlo : -(2 ^ 16 / 2) ≤ toInt16 x := Int.le_bmod (by decide)
  have hhi : toInt16 x < (2 ^ 16 + 1) / 2 := Int.bmod_lt (by decide)
  omega

theorem reply_handleDuty (args : List UInt8) (t : Telemetry) :
    ∀ r ∈ (handleDuty args t).2, Reply r := by
  rw [handleDuty]
  split
  · exact List.forall_mem_singleton.mpr (reply_of_literal 'E' "RR,duty,parse" (by decide +kernel))
  · rename_i left p1 _
    have hleft := field_toString_int (natAbs_toInt16_lt (parseI16 left))
    have hright := field_toString_int (natAbs_toInt16_lt (parseI16 (cutAt comma p1).1))
    have hname : Field "K,duty,".toList := by decide +kernel
    have hcomma : Field [','] := by decide
    -- whether the hold time is given or not, it is a 32-bit number
    have hhold : ∀ hold : UInt32, Reply ("$OK,duty," ++ toString (toInt16 (parseI16 left)) ++ "," ++
        toString (toInt16 (parseI16 (cutAt comma p1).1)) ++ "," ++ toString hold ++ "\r\n") := by
      intro hold
      have hfield : Field (toString hold).toList := field_toString_nat hold.toNat_lt
      apply reply_of_fields 'O' (by decide) (by decide) ["K,duty,".toList,
        (toString (toInt16 (parseI16 left))).toList, [','],
        (toString (toInt16 (parseI16 (cutAt comma p1).1))).toList, [','], (toString hold).toList]
      · simp only [List.forall_mem_cons]
        exact ⟨hname, hleft, hcomma, hright, hcomma, hfield, List.forall_mem_nil _⟩
      · exact (by decide : 6 ≤ 19)
      · simp [String.toList_append, sent]
    exact List.forall_mem_singleton.mpr (hhold _)

theorem reply_runCommand (t : Telemetry) (ht : t.periodMs < 2 ^ 16) (c : Command) :
    ∀ r ∈ (runCommand t c).2, Reply r := by
  cases c with
  | start => exact List.forall_mem_singleton.mpr (reply_of_literal 'O' "K,start" (by decide +kernel))
  | stop => exact List.forall_mem_singleton.mpr (reply_of_literal 'O' "K,stop" (by decide +kernel))
  | pause => exact List.forall_mem_singleton.mpr (reply_of_literal 'O' "K,pause" (by decide +kernel))
  | resume =>
      exact List.forall_mem_singleton.mpr (reply_of_literal 'O' "K,resume" (by decide +kernel))
  | rate arg =>
      simp only [runCommand]
      split
      · rename_i hrange
        have hname : Field "K,rate,".toList := by decide +kernel
        have hfield : Field (toString (atoi arg)).toList := field_toString_int (by omega)
        refine List.forall_mem_singleton.mpr (reply_of_fields 'O' (by decide) (by decide)
          ["K,rate,".toList, (toString (atoi arg)).toList] ?_ ?_ ?_)
        · simp only [List.forall_mem_cons]
          exact ⟨hname, hfield, List.forall_mem_nil _⟩
        · exact (by decide : 2 ≤ 19)
        · simp [String.toList_append, sent]
      · exact List.forall_mem_singleton.mpr
          (reply_of_literal 'E' "RR,rate,range" (by decide +kernel))
  | rawLine arg =>
      exact List.forall_mem_singleton.mpr
        (reply_flag 'O' "K,rawline,".toList (by decide) rfl (by decide +kernel) _)
  | rawImu arg =>
      exact List.forall_mem_singleton.mpr
        (reply_flag 'O' "K,rawimu,".toList (by decide) rfl (by decide +kernel) _)
  | duty args => exact reply_handleDuty args t
  | imuCalStart =>
      exact List.forall_mem_singleton.mpr (reply_of_literal 'O' "K,imucal,start" (by decide +kernel))
  | imuCalCancel =>
      exact List.forall_mem_singleton.mpr
        (reply_of_literal 'O' "K,imucal,cancel" (by decide +kernel))
  | dump =>
      simp only [runCommand, List.forall_mem_cons]
      refine ⟨?_, ?_, ?_, ?_, List.forall_mem_nil _⟩
      · have hname : Field "FG,rate_ms,".toList := by decide +kernel
        have hfield : Field (toString t.periodMs).toList := field_toString_nat (by omega)
        apply reply_of_fields 'C' (by decide) (by decide)
          ["FG,rate_ms,".toList, (toString t.periodMs).toList]
        · simp only [List.forall_mem_cons]
          exact ⟨hname, hfield, List.forall_mem_nil _⟩
        · exact (by decide : 2 ≤ 19)
        · simp [String.toList_append, sent]
      · exact reply_flag 'C' "FG,enabled,".toList (by decide) rfl
          (by decide +kernel) _
      · exact reply_flag 'C' "FG,rawline,".toList (by decide) rfl
          (by decide +kernel) _
      · exact reply_flag 'C' "FG,rawimu,".toList (by decide) rfl
          (by decide +kernel) _
  | unknown =>
      exact List.forall_mem_singleton.mpr (reply_of_literal 'E' "RR,unknown" (by decide +kernel))
  | empty => exact List.forall_mem_nil _

theorem reply_telemetryOnRxByte (byte : UInt8) (t : Telemetry) (ht : t.periodMs < 2 ^ 16) :
    ∀ r ∈ (telemetryOnRxByte byte t).2, Reply r := by
  rw [telemetryOnRxByte]
  split_ifs
  · exact List.forall_mem_nil _
  · exact List.forall_mem_nil _
  · exact reply_runCommand t ht _
  · exact List.forall_mem_nil _
  · exact List.forall_mem_nil _
  · exact List.forall_mem_nil _

end NuedcFirmware.Modules.TelemetryOutput
