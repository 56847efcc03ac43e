import NuedcFirmware.Lib.Run
import NuedcFirmware.Modules.Telemetry
import Mathlib.Data.List.Induction
import Mathlib.Data.List.TakeWhile
import Mathlib.Tactic.SplitIfs

/-!
The command receiver over a stream of bytes.

The receiver drops what it has stored of a line with the 80th byte of it, and stores
on from the next byte; what stands in the buffer at the end of a line is therefore
its last part, the line up to the greatest multiple of 80 being cut off. A line that
fits is interpreted as it is. Of one that does not fit the last part is interpreted,
as if it were a line.
-/

namespace NuedcFirmware.Modules.CommandLine

open NuedcFirmware.Lib

/-- The module together with the bytes of the current line, without carriage returns
and without the bytes that act at once. -/
structure Observed where
  telemetry : Telemetry
  line : List UInt8
  deriving DecidableEq

/-- A byte is received, or a task uses the module between two bytes. -/
inductive Event
  | rxByte (byte : UInt8)
  | tick (tsMs : UInt32)
  | consumeStart
  | consumeStop
  | consumeDuty
  | consumeImuCal

/-- The bytes of a line. -/
def nextLine (byte : UInt8) (line : List UInt8) : List UInt8 :=
  if byte = 10 then []
  else if byte = 115 ∨ byte = 120 ∨ byte = 13 then line
  else line ++ [byte]

def step (o : Observed) : Event → Observed
  | .rxByte byte => ⟨(telemetryOnRxByte byte o.telemetry).1, nextLine byte o.line⟩
  | .tick tsMs => { o with telemetry := (telemetryTick tsMs o.telemetry).1 }
  | .consumeStart => { o with telemetry := (telemetryConsumeStartRequest o.telemetry).2 }
  | .consumeStop => { o with telemetry := (telemetryConsumeStopRequest o.telemetry).2 }
  | .consumeDuty => { o with telemetry := (telemetryConsumeDutyRequest o.telemetry).2 }
  | .consumeImuCal => { o with telemetry := (telemetryConsumeImuCalRequest o.telemetry).2 }

def start : Observed := ⟨Telemetry.initial, []⟩

/-- The line fits the buffer, its terminating zero included. -/
def Fits (line : List UInt8) : Prop := line.length < cmdBufLen

instance (line : List UInt8) : Decidable (Fits line) :=
  inferInstanceAs (Decidable (line.length < cmdBufLen))

/-- What a byte may do to the module. A line that fits is interpreted at its line feed,
as exactly its text; one that does not fit changes nothing but the buffer; and so does
every byte that is no line feed and does not act at once. -/
def WholeLines (o : Observed) : Event → Prop
  | .rxByte byte =>
      let r := telemetryOnRxByte byte o.telemetry
      (byte = 10 → Fits o.line → (∀ c ∈ o.line, c ≠ 0) →
          let interpreted := runCommand o.telemetry (parseCommand o.line)
          r = ({ interpreted.1 with cmdBuf := [] }, interpreted.2)) ∧
        (byte = 10 → ¬ Fits o.line → r.1 = { o.telemetry with cmdBuf := [] }) ∧
        (byte ≠ 10 → byte ≠ 115 → byte ≠ 120 →
          r = ({ o.telemetry with cmdBuf := r.1.cmdBuf }, []))
  | _ => True

/-! ### What is in the buffer -/

/-- What is left of a line when whole buffers are cut off. -/
def lastPart (line : List UInt8) : List UInt8 :=
  line.drop (cmdBufLen * (line.length / cmdBufLen))

theorem length_lastPart (line : List UInt8) :
    (lastPart line).length = line.length % cmdBufLen := by
  rw [lastPart, List.length_drop]
  have := Nat.div_add_mod line.length cmdBufLen
  omega

theorem lastPart_of_fits {line : List UInt8} (h : Fits line) : lastPart line = line := by
  rw [lastPart, Nat.div_eq_of_lt h, Nat.mul_zero, List.drop_zero]

/-- One more byte is appended, or finds the buffer full. -/
theorem lastPart_append (line : List UInt8) (byte : UInt8) :
    lastPart (line ++ [byte]) =
      if (lastPart line).length < cmdBufLen - 1 then lastPart line ++ [byte] else [] := by
  have hlen : (line ++ [byte]).length = line.length + 1 := List.length_append
  rw [length_lastPart, lastPart, hlen]
  by_cases hroom : line.length % cmdBufLen < cmdBufLen - 1
  · have hsame : (line.length + 1) / cmdBufLen = line.length / cmdBufLen := by
      simp only [cmdBufLen] at hroom ⊢
      omega
    rw [if_pos hroom, hsame, List.drop_append_of_le_length (Nat.mul_div_le ..)]
    rfl
  · have hnext : cmdBufLen * ((line.length + 1) / cmdBufLen) = line.length + 1 := by
      simp only [cmdBufLen] at hroom ⊢
      omega
    rw [if_neg hroom, hnext]
    exact List.drop_eq_nil_of_le hlen.le

/-- The bytes of a line hold no carriage return and no line feed. -/
structure Inv (o : Observed) : Prop where
  buffer : o.telemetry.cmdBuf = lastPart o.line
  plain : ∀ c ∈ o.line, c ≠ 13 ∧ c ≠ 10

theorem cmdBuf_runCommand (t : Telemetry) (c : Command) : (runCommand t c).1.cmdBuf = t.cmdBuf := by
  cases c with
  | rate hz => simp only [runCommand]; split <;> rfl
  | duty args =>
      simp only [runCommand, handleDuty_fst]
      cases dutyArguments args <;> rfl
  | _ => rfl

/-- What a byte does to the buffer. -/
theorem cmdBuf_telemetryOnRxByte (byte : UInt8) (t : Telemetry) :
    (telemetryOnRxByte byte t).1.cmdBuf =
      if byte = 10 then []
      else if byte = 115 ∨ byte = 120 ∨ byte = 13 then t.cmdBuf
      else if t.cmdBuf.length < cmdBufLen - 1 then t.cmdBuf ++ [byte] else [] := by
  rw [telemetryOnRxByte]
  split_ifs <;> simp_all

theorem cmdBuf_telemetryTick (tsMs : UInt32) (t : Telemetry) :
    (telemetryTick tsMs t).1.cmdBuf = t.cmdBuf := by
  rw [telemetryTick]
  split_ifs <;> rfl

theorem cmdBuf_telemetryConsumeDutyRequest (t : Telemetry) :
    (telemetryConsumeDutyRequest t).2.cmdBuf = t.cmdBuf := by
  rw [telemetryConsumeDutyRequest]
  split_ifs <;> rfl

theorem inv_step (o : Observed) (e : Event) (h : Inv o) : Inv (step o e) := by
  cases e with
  | rxByte byte =>
      refine ⟨?_, ?_⟩
      · simp only [step, cmdBuf_telemetryOnRxByte, nextLine, h.buffer]
        split_ifs with hnl hsilent hroom
        · rfl
        · rfl
        · rw [lastPart_append, if_pos hroom]
        · rw [lastPart_append, if_neg hroom]
      · intro c hc
        simp only [step, nextLine] at hc
        split_ifs at hc with hnl hsilent
        · simp at hc
        · exact h.plain c hc
        · rcases List.mem_append.mp hc with hold | hnew
          · exact h.plain c hold
          · rw [List.mem_singleton.mp hnew]
            exact ⟨fun h => hsilent (Or.inr (Or.inr h)), hnl⟩
  | tick tsMs => exact ⟨(cmdBuf_telemetryTick tsMs _).trans h.buffer, h.plain⟩
  | consumeDuty => exact ⟨(cmdBuf_telemetryConsumeDutyRequest _).trans h.buffer, h.plain⟩
  | consumeStart | consumeStop | consumeImuCal => exact ⟨h.buffer, h.plain⟩

/-! ### What a command changes -/

/-- The command asks for something that is not already so. -/
def Changes (t : Telemetry) : Command → Prop
  | .start => t.startRequest = false
  | .stop => t.stopRequest = false
  | .pause => t.enabled = true
  | .resume => t.enabled = false
  | .rate hz => (atoi hz ≥ 1 ∧ atoi hz ≤ 500) ∧ t.periodMs ≠ (1000 / atoi hz).toNat
  | .rawLine on => t.rawLineEnabled ≠ decide (atoi on ≠ 0)
  | .rawImu on => t.rawImuEnabled ≠ decide (atoi on ≠ 0)
  | .duty args => ∃ request, dutyArguments args = some request ∧
      ¬ (t.dutyRequestPending = true ∧ t.dutyRequest = request)
  | .imuCalStart => t.imuCalRequest ≠ .start
  | .imuCalCancel => t.imuCalRequest ≠ .cancel
  | .dump | .unknown | .empty => False

/-- The period of an accepted rate is never 0. -/
theorem period_ne_zero {hz : ℤ} (h : hz ≥ 1 ∧ hz ≤ 500) : (1000 / hz).toNat ≠ 0 := by
  have hpos : 1 ≤ 1000 / hz := Int.le_ediv_of_mul_le (by omega) (by omega)
  omega

theorem runCommand_eq_iff (t : Telemetry) (c : Command) :
    (runCommand t c).1 = t ↔ ¬ Changes t c := by
  obtain ⟨⟩ := t
  cases c with
  | rate hz =>
      simp only [runCommand, Changes]
      split_ifs with hrange hzero
      · exact absurd hzero (period_ne_zero hrange)
      · simp [hrange, eq_comm]
      · simp [hrange]
  | duty args =>
      simp only [runCommand, handleDuty_fst, Changes]
      cases dutyArguments args with
      | none => simp
      | some request => simp [Telemetry.post, eq_comm]
  | rawLine on | rawImu on =>
      simp only [runCommand, Changes, Telemetry.mk.injEq, true_and, and_true, not_not, eq_comm]
  | _ => simp [runCommand, Changes, eq_comm]

/-! ### Lines over a stream -/

/-- A line that does not fit ends in no command that asks for something new. -/
def NoCommandBehindOverrun (o : Observed) (e : Event) : Prop :=
  e = .rxByte 10 → ¬ Fits o.line → ¬ Changes o.telemetry (parseCommand (lineText (lastPart o.line)))

/-- A line without zeros is its own text. -/
theorem lineText_eq {line : List UInt8} (hplain : ∀ c ∈ line, c ≠ 13 ∧ c ≠ 10)
    (hzero : ∀ c ∈ line, c ≠ 0) : lineText line = line := by
  rw [lineText, List.takeWhile_eq_self_iff]
  intro c hc
  simp [hzero c hc, hplain c hc]

/-- The buffer apart, an overrun line changes nothing if and only if the command it ends
in does not. -/
theorem overrun_iff (t : Telemetry) :
    (telemetryOnRxByte 10 t).1 = { t with cmdBuf := [] } ↔
      ¬ Changes t (parseCommand (lineText t.cmdBuf)) := by
  rw [← runCommand_eq_iff]
  have hbuffer := cmdBuf_runCommand t (parseCommand (lineText t.cmdBuf))
  have hstep : (telemetryOnRxByte 10 t).1 =
      { (runCommand t (parseCommand (lineText t.cmdBuf))).1 with cmdBuf := [] } := rfl
  rw [hstep]
  generalize (runCommand t (parseCommand (lineText t.cmdBuf))).1 = t' at hbuffer ⊢
  cases t
  cases t'
  simp_all

/-- Between two line feeds only the buffer is written. -/
theorem telemetryOnRxByte_of_ne (t : Telemetry) {byte : UInt8} (hnl : byte ≠ 10) (hs : byte ≠ 115)
    (hx : byte ≠ 120) :
    telemetryOnRxByte byte t =
      ({ t with cmdBuf := (telemetryOnRxByte byte t).1.cmdBuf }, []) := by
  rw [telemetryOnRxByte]
  split_ifs <;> first | contradiction | rfl

theorem wholeLines_step_iff (o : Observed) (e : Event) (h : Inv o) :
    WholeLines o e ↔ NoCommandBehindOverrun o e := by
  cases e with
  | rxByte byte =>
      refine ⟨?_, ?_⟩
      · rintro ⟨-, hover, -⟩ he hline
        obtain rfl : byte = 10 := by simpa using he
        rw [← h.buffer]
        exact (overrun_iff o.telemetry).mp (hover rfl hline)
      · intro hno
        refine ⟨?_, ?_, fun hnl hs hx => telemetryOnRxByte_of_ne _ hnl hs hx⟩
        · rintro rfl hfits hzero
          have hbuffer := h.buffer.trans (lastPart_of_fits hfits)
          have htext := lineText_eq h.plain hzero
          show telemetryOnRxByte 10 o.telemetry = _
          rw [← htext, ← hbuffer]
          rfl
        · rintro rfl hline
          rw [overrun_iff, h.buffer]
          exact hno rfl hline
  | _ => exact ⟨fun _ he => (by cases he), fun _ => trivial⟩

/-- Commands are executed by whole lines only, over every stream of bytes and whatever
the tasks take in between, if and only if no line that does not fit ends in a command
that asks for something new. -/
theorem wholeLines_iff (run : List Event) :
    EachStep step WholeLines start run ↔ EachStep step NoCommandBehindOverrun start run := by
  have hstart : Inv start := ⟨rfl, by simp [start]⟩
  exact eachStep_congr (fun o e h _ => inv_step o e h) wholeLines_step_iff hstart

/-- The bytes of a line leave nothing but the line behind, and its last part in the
buffer. -/
theorem exec_line {line : List UInt8}
    (h : ∀ c ∈ line, c ≠ 10 ∧ c ≠ 13 ∧ c ≠ 115 ∧ c ≠ 120) :
    exec step start (line.map .rxByte) =
      ⟨{ Telemetry.initial with cmdBuf := lastPart line }, line⟩ := by
  induction line using List.reverseRecOn with
  | nil => rfl
  | append_singleton line byte ih =>
      obtain ⟨hnl, hcr, hs, hx⟩ := h byte (by simp)
      rw [List.map_append, exec_append, ih fun c hc => h c (by simp [hc])]
      simp only [List.map_singleton, exec_cons, exec_nil, step]
      rw [telemetryOnRxByte_of_ne _ hnl hs hx, cmdBuf_telemetryOnRxByte, lastPart_append, nextLine]
      simp [hnl, hcr, hs, hx]

/-- A stop command behind 80 other bytes of its line. -/
def overrun : List UInt8 := List.replicate 80 97 ++ ascii "$STOP"

/-- It is executed. -/
theorem stop_behind_overrun :
    ¬ EachStep step WholeLines start (overrun.map .rxByte ++ [.rxByte 10]) := by
  have hplain : ∀ c ∈ overrun, c ≠ 10 ∧ c ≠ 13 ∧ c ≠ 115 ∧ c ≠ 120 := by
    intro c hc
    rcases List.mem_append.mp hc with hfill | hstop
    · rw [List.eq_of_mem_replicate hfill]
      decide
    · have hletters : ∀ c ∈ ascii "$STOP", c ≠ 10 ∧ c ≠ 13 ∧ c ≠ 115 ∧ c ≠ 120 := by
        decide +kernel
      exact hletters c hstop
  have hlast : lastPart overrun = ascii "$STOP" := List.drop_left' (by decide)
  intro h
  obtain ⟨-, hover, -⟩ := (eachStep_append.mp h).2.1
  rw [exec_line hplain, hlast] at hover
  exact absurd (hover rfl (by decide)) (by decide)

end NuedcFirmware.Modules.CommandLine
