import NuedcFirmware.Lib.Run
import NuedcFirmware.Modules.Motor
import Mathlib.Data.Int.ConditionallyCompleteOrder
import Mathlib.Order.Interval.Set.ProjIcc

/-!
The motor hardware and the duty that the software keeps of it.

An output stage is two direction pins and a compare register, and what it can show is a
`Command`: a duty within full scale, or the brake. Through all four layers a motor
shows the command of the call that wrote its pins last; what there is to know of the
hardware is read off the command.
-/

namespace NuedcFirmware.Modules.MotorHardware

open NuedcFirmware.Lib NuedcFirmware.Platform

/-! ### Commands and output stages -/

/-- The duties within full scale. -/
abbrev Duty := Set.Icc (-1000 : ℤ) 1000

def toDuty : ℤ → Duty := Set.projIcc (-1000) 1000 (by decide)

inductive Command
  | drive (duty : Duty)
  | brake

/-- The registers of one output stage. -/
structure Stage where
  in1 : Bool
  in2 : Bool
  compare : ℕ

def Command.duty : Command → ℤ
  | .drive duty => duty
  | .brake => 0

def Command.stage : Command → Stage
  | .drive duty => ⟨0 < duty.val, duty.val < 0, 1000 - duty.val.natAbs⟩
  | .brake => ⟨true, true, 1000⟩

def stage (motor : DrvHBridgeMotor) (b : Board) : Stage where
  in1 := b.output motor.in1.pin
  in2 := b.output motor.in2.pin
  compare := b.compare motor.pwm.channel

theorem val_toDuty (duty : ℤ) : (toDuty duty : ℤ) = max (-1000) (min duty 1000) := by
  rw [toDuty, Set.coe_projIcc, min_comm]

/-! ### The H-bridge -/

/-- A bridge wired like the two of the car. -/
structure Wired (motor : DrvHBridgeMotor) : Prop where
  pins : motor.in1.pin ≠ motor.in2.pin
  direction : motor.direction = -1
  periodTicks : motor.pwm.periodTicks = 1000
  polarity : motor.pwm.polarity = .activeLow

/-- Two bridges that share neither a pin nor a channel. -/
structure Apart (motor motor' : DrvHBridgeMotor) : Prop where
  in1 : motor'.in1.pin ≠ motor.in1.pin ∧ motor'.in1.pin ≠ motor.in2.pin
  in2 : motor'.in2.pin ≠ motor.in1.pin ∧ motor'.in2.pin ≠ motor.in2.pin
  channel : motor'.pwm.channel ≠ motor.pwm.channel

section Wired

variable {motor : DrvHBridgeMotor} (h : Wired motor) (b : Board) (high : Bool)
include h

theorem stage_writeIn1 :
    stage motor (drvGpioWriteRaw motor.in1 high b) = { stage motor b with in1 := high } := by
  simp [stage, drvGpioWriteRaw, h.pins.symm]

theorem stage_writeIn2 :
    stage motor (drvGpioWriteRaw motor.in2 high b) = { stage motor b with in2 := high } := by
  simp [stage, drvGpioWriteRaw, h.pins]

theorem stage_setDutyPermille {duty : ℕ} (hduty : duty ≤ 1000) :
    stage motor (drvPwmSetDutyPermille motor.pwm duty b) =
      { stage motor b with compare := 1000 - duty } := by
  have hcompare : 1000 * min duty 1000 / 1000 = duty := by omega
  simp [stage, drvPwmSetDutyPermille, drvPwmSetCompareRaw, h.polarity, h.periodTicks,
    drvPwmDutyMax, hcompare]

theorem stage_coast :
    stage motor (drvHBridgeMotorCoast motor b) = (Command.drive (toDuty 0)).stage := by
  rw [drvHBridgeMotorCoast, stage_writeIn2 h, stage_writeIn1 h,
    stage_setDutyPermille h _ (Nat.zero_le _)]
  rfl

theorem stage_brake : stage motor (drvHBridgeMotorBrake motor b) = Command.brake.stage := by
  rw [drvHBridgeMotorBrake, stage_writeIn2 h, stage_writeIn1 h,
    stage_setDutyPermille h _ (Nat.zero_le _)]
  rfl

/-- The bridge is wired backwards, and the compare register counts the inactive ticks;
what the registers show is the duty the caller meant. -/
theorem stage_setSignedDuty (duty : Duty) :
    stage motor (drvHBridgeMotorSetSignedDuty motor duty b) = (Command.drive duty).stage := by
  obtain ⟨duty, hlo, hhi⟩ := duty
  have hclamp : Platform.clampDuty duty = duty := by
    simp only [Platform.clampDuty, hbridgeDutyMax]
    split_ifs <;> omega
  have hwired : motor.wired duty = -duty := by
    simp [DrvHBridgeMotor.wired, h.direction]
  simp only [drvHBridgeMotorSetSignedDuty, hclamp, hwired]
  split_ifs with hzero hbackward
  · subst hzero
    exact stage_coast h b
  · have hmagnitude : (-duty).toNat = duty.natAbs := by omega
    rw [hmagnitude, stage_setDutyPermille h _ (by omega), stage_writeIn2 h, stage_writeIn1 h]
    have hneg : duty < 0 := by omega
    simp [Command.stage, hneg, hneg.le]
  · have hmagnitude : (- -duty).toNat = duty.natAbs := by omega
    rw [hmagnitude, stage_setDutyPermille h _ (by omega), stage_writeIn2 h, stage_writeIn1 h]
    have hpos : 0 < duty := by omega
    simp [Command.stage, hpos, hpos.le]

end Wired

section Apart

variable {motor motor' : DrvHBridgeMotor} (h : Apart motor motor') (b : Board)
include h

theorem stage_writeIn1_of_apart (high : Bool) :
    stage motor' (drvGpioWriteRaw motor.in1 high b) = stage motor' b := by
  simp [stage, drvGpioWriteRaw, h.in1.1, h.in2.1]

theorem stage_writeIn2_of_apart (high : Bool) :
    stage motor' (drvGpioWriteRaw motor.in2 high b) = stage motor' b := by
  simp [stage, drvGpioWriteRaw, h.in1.2, h.in2.2]

theorem stage_setDutyPermille_of_apart (duty : ℕ) :
    stage motor' (drvPwmSetDutyPermille motor.pwm duty b) = stage motor' b := by
  rw [drvPwmSetDutyPermille]
  cases motor.pwm.polarity <;> simp [stage, drvPwmSetCompareRaw, h.channel]

theorem stage_coast_of_apart :
    stage motor' (drvHBridgeMotorCoast motor b) = stage motor' b := by
  rw [drvHBridgeMotorCoast, stage_writeIn2_of_apart h, stage_writeIn1_of_apart h,
    stage_setDutyPermille_of_apart h]

theorem stage_brake_of_apart :
    stage motor' (drvHBridgeMotorBrake motor b) = stage motor' b := by
  rw [drvHBridgeMotorBrake, stage_writeIn2_of_apart h, stage_writeIn1_of_apart h,
    stage_setDutyPermille_of_apart h]

theorem stage_setSignedDuty_of_apart (duty : ℤ) :
    stage motor' (drvHBridgeMotorSetSignedDuty motor duty b) = stage motor' b := by
  rw [drvHBridgeMotorSetSignedDuty]
  split_ifs
  · exact stage_coast_of_apart h b
  · rw [stage_setDutyPermille_of_apart h, stage_writeIn2_of_apart h, stage_writeIn1_of_apart h]
  · rw [stage_setDutyPermille_of_apart h, stage_writeIn2_of_apart h, stage_writeIn1_of_apart h]

end Apart

theorem wired_sMotorConfig (w : Wheel) : Wired (sMotorConfig w).output := by
  cases w <;> exact ⟨by decide, rfl, rfl, rfl⟩

theorem apart_sMotorConfig {w w' : Wheel} (h : w' ≠ w) :
    Apart (sMotorConfig w).output (sMotorConfig w').output := by
  cases w <;> cases w' <;>
    first | exact absurd rfl h | exact ⟨by decide, by decide, by decide⟩

/-! ### The module -/

def hardware (s : BspMotor) (w : Wheel) : Stage := stage (sMotorConfig w).output s.board

/-- Duty and registers of a motor are those of the command. -/
structure Shows (s : BspMotor) (w : Wheel) (command : Command) : Prop where
  duty : s.duty w = command.duty
  hardware : hardware s w = command.stage

/-- A device operation that carries out the command on a motor of the car, and leaves
the other one alone. -/
structure CarriesOut (op : DevMotor → Board → DevMotor × Board) (command : Command) : Prop where
  config : ∀ motor b, (op motor b).1.config = motor.config
  duty : ∀ w motor b, motor.config = sMotorConfig w → (op motor b).1.duty = command.duty
  own : ∀ w motor b, motor.config = sMotorConfig w →
    stage (sMotorConfig w).output (op motor b).2 = command.stage
  other : ∀ w w' motor b, motor.config = sMotorConfig w → w' ≠ w →
    stage (sMotorConfig w').output (op motor b).2 = stage (sMotorConfig w').output b

theorem carriesOut_setSignedDuty (duty : ℤ) :
    CarriesOut (devMotorSetSignedDuty duty) (.drive (toDuty duty)) where
  config motor b := config_devMotorSetSignedDuty motor b duty
  duty w motor b hconfig := by
    rw [duty_devMotorSetSignedDuty, clampSigned_of_config hconfig, ← val_toDuty]
    rfl
  own w motor b hconfig := by
    have hwired := wired_sMotorConfig w
    simp only [devMotorSetSignedDuty, clampSigned_of_config hconfig, ← val_toDuty, hconfig]
    split_ifs with hzero
    · have hcommand : toDuty duty = toDuty 0 := Subtype.ext hzero
      rw [hcommand]
      exact stage_coast hwired b
    · exact stage_setSignedDuty hwired b _
  other w w' motor b hconfig hne := by
    have hapart := apart_sMotorConfig hne
    simp only [devMotorSetSignedDuty, hconfig]
    split_ifs
    · exact stage_coast_of_apart hapart b
    · exact stage_setSignedDuty_of_apart hapart b _

theorem carriesOut_brake : CarriesOut devMotorBrake .brake where
  config _ _ := rfl
  duty _ _ _ _ := rfl
  own w motor b hconfig := by
    rw [devMotorBrake, hconfig]
    exact stage_brake (wired_sMotorConfig w) b
  other w w' motor b hconfig hne := by
    rw [devMotorBrake, hconfig]
    exact stage_brake_of_apart (apart_sMotorConfig hne) b

/-- The module with the commands its motors show. -/
structure Showing (s : BspMotor) (command : Wheel → Command) : Prop where
  config : ∀ w, (s.motor w).config = sMotorConfig w
  shows : ∀ w, Shows s w (command w)

theorem Showing.onMotor {s : BspMotor} {command : Wheel → Command} (h : Showing s command)
    (w : Wheel) {op : DevMotor → Board → DevMotor × Board} {new : Command}
    (hop : CarriesOut op new) :
    Showing (s.onMotor w op) (Function.update command w new) where
  config w' := by
    by_cases hw : w' = w
    · subst hw
      simp [BspMotor.onMotor, hop.config, h.config]
    · simp [BspMotor.onMotor, hw, h.config]
  shows w' := by
    by_cases hw : w' = w
    · subst hw
      rw [Function.update_self]
      refine ⟨?_, hop.own w' _ _ (h.config w')⟩
      rw [BspMotor.duty_onMotor, if_pos rfl]
      exact hop.duty w' _ _ (h.config w')
    · rw [Function.update_of_ne hw]
      refine ⟨?_, ?_⟩
      · rw [BspMotor.duty_onMotor, if_neg hw]
        exact (h.shows w').duty
      · exact (hop.other w w' _ _ (h.config w) hw).trans (h.shows w').hardware

theorem showing_bspMotorInit (b : Board) :
    Showing (bspMotorInit b) fun _ => .drive (toDuty 0) where
  config := config_bspMotorInit b
  shows w := by
    refine ⟨duty_bspMotorInit b w, ?_⟩
    rw [hardware, board_bspMotorInit]
    have hstart (b' : Board) (motor motor' : DrvHBridgeMotor) :
        stage motor (drvHBridgeMotorStart motor' b') =
          stage motor (drvHBridgeMotorCoast motor' (drvPwmSetDutyPermille motor'.pwm 0 b')) := rfl
    cases w with
    | left =>
        have hapart : Apart (sMotorConfig .right).output (sMotorConfig .left).output :=
          apart_sMotorConfig (by decide)
        rw [hstart, stage_coast_of_apart hapart, stage_setDutyPermille_of_apart hapart, hstart]
        exact stage_coast (wired_sMotorConfig .left) _
    | right =>
        rw [hstart]
        exact stage_coast (wired_sMotorConfig .right) _

/-! ### Runs -/

/-- What happens after `BSP_Motor_Init`: a call, or a write of `g_tick_ms`. -/
inductive Call
  | setDuty (ch : ℕ) (duty : ℤ)
  | setSignedDuty (ch : ℕ) (duty : ℤ)
  | brake (ch : ℕ)
  | safetyTick (nowMs : UInt32)
  | clock (tickMs : UInt32)

def perform (s : BspMotor) : Call → BspMotor
  | .setDuty ch duty => bspMotorSetDuty ch duty s
  | .setSignedDuty ch duty => bspMotorSetSignedDuty ch duty s
  | .brake ch => bspMotorBrake ch s
  | .safetyTick nowMs => bspMotorSafetyTick nowMs s
  | .clock tickMs => { s with board := { s.board with gTickMs := tickMs } }

/-- The call is on the channel of one motor. -/
def Call.channel : Call → Option ℕ
  | .setDuty ch _ | .setSignedDuty ch _ | .brake ch => some ch
  | .safetyTick _ | .clock _ => none

/-- `BSP_Motor_SafetyTick` finds a duty and a command that is too old. -/
def Expired (s : BspMotor) (nowMs : UInt32) : Prop :=
  (s.duty .left ≠ 0 ∨ s.duty .right ≠ 0) ∧ nowMs - s.lastCommandMs > motorCommandTimeoutMs

instance (s : BspMotor) (nowMs : UInt32) : Decidable (Expired s nowMs) :=
  inferInstanceAs (Decidable (_ ∧ _))

/-- The call writes the direction pins of the motor. -/
def WritesPins (s : BspMotor) (w : Wheel) : Call → Prop
  | .setDuty ch _ | .setSignedDuty ch _ | .brake ch => w = motorIndex ch
  | .safetyTick nowMs => Expired s nowMs
  | .clock _ => False

instance (s : BspMotor) (w : Wheel) : DecidablePred (WritesPins s w)
  | .setDuty ch _ | .setSignedDuty ch _ | .brake ch =>
      inferInstanceAs (Decidable (w = motorIndex ch))
  | .safetyTick nowMs => inferInstanceAs (Decidable (Expired s nowMs))
  | .clock _ => inferInstanceAs (Decidable False)

/-- The module, and for each motor the last call that wrote its pins. -/
structure Observed where
  motor : BspMotor
  writer : Wheel → Option Call

def step (o : Observed) (call : Call) : Observed where
  motor := perform o.motor call
  writer w := if WritesPins o.motor w call then some call else o.writer w

def start (b : Board) : Observed := ⟨bspMotorInit b, fun _ => none⟩

/-- What a motor has been told by the call that wrote its pins last. -/
def commanded : Option Call → Command
  | some (.setDuty _ duty) => .drive (toDuty (max 0 (min duty 1000)))
  | some (.setSignedDuty _ duty) => .drive (toDuty duty)
  | some (.brake _) => .brake
  | some (.safetyTick _) | some (.clock _) | none => .drive (toDuty 0)

/-- The invariant: every motor shows what it has been told. -/
def Inv (o : Observed) : Prop := Showing o.motor fun w => commanded (o.writer w)

theorem Showing.congr {s : BspMotor} {command command' : Wheel → Command}
    (h : Showing s command) (heq : ∀ w, command w = command' w) : Showing s command' := by
  obtain rfl : command = command' := funext heq
  exact h

theorem inv_start (b : Board) : Inv (start b) := showing_bspMotorInit b

/-- A call on a channel tells that motor its command. -/
theorem inv_step_of_channel {o : Observed} {call : Call} {ch : ℕ}
    (hwrites : ∀ w, WritesPins o.motor w call ↔ w = motorIndex ch)
    (hperform : Showing (perform o.motor call)
      (Function.update (fun w => commanded (o.writer w)) (motorIndex ch) (commanded (some call)))) :
    Inv (step o call) := by
  refine hperform.congr fun w => ?_
  by_cases hw : w = motorIndex ch
  · subst hw
    simp [step, (hwrites _).mpr]
  · simp [step, hw, hwrites]

/-- The clamp of the board layer changes nothing that the device layer would not. -/
theorem bspMotorSetSignedDuty_eq (ch : ℕ) (duty : ℤ) (s : BspMotor) :
    ∃ clamped tickMs, toDuty clamped = toDuty duty ∧
      bspMotorSetSignedDuty ch duty s =
        { s.onMotor (motorIndex ch) (devMotorSetSignedDuty clamped) with
          lastCommandMs := tickMs } := by
  refine ⟨_, _, ?_, rfl⟩
  apply Subtype.ext
  simp only [val_toDuty, pwmMax]
  split_ifs <;> omega

theorem showing_setSignedDuty {s : BspMotor} {command : Wheel → Command}
    (h : Showing s command) (ch : ℕ) (duty : ℤ) :
    Showing (bspMotorSetSignedDuty ch duty s)
      (Function.update command (motorIndex ch) (.drive (toDuty duty))) := by
  obtain ⟨clamped, tickMs, hclamped, heq⟩ := bspMotorSetSignedDuty_eq ch duty s
  have hmotor := h.onMotor (motorIndex ch) (carriesOut_setSignedDuty clamped)
  rw [heq, ← hclamped]
  exact ⟨hmotor.config, fun w => ⟨(hmotor.shows w).duty, (hmotor.shows w).hardware⟩⟩

theorem showing_safetyTick {s : BspMotor} {command : Wheel → Command} (h : Showing s command)
    {nowMs : UInt32} (hexpired : Expired s nowMs) :
    Showing (bspMotorSafetyTick nowMs s) fun _ => .drive (toDuty 0) := by
  have hleft := h.onMotor .left (carriesOut_setSignedDuty 0)
  have hboth := hleft.onMotor .right (carriesOut_setSignedDuty 0)
  rw [Expired] at hexpired
  rw [bspMotorSafetyTick, if_pos hexpired]
  refine hboth.congr fun w => ?_
  cases w <;> rfl

theorem inv_step (o : Observed) (call : Call) (h : Inv o) : Inv (step o call) := by
  cases call with
  | setDuty ch duty =>
      have hclamp : (if (if duty > pwmMax then pwmMax else duty) < 0 then 0
          else if duty > pwmMax then pwmMax else duty) = max 0 (min duty 1000) := by
        simp only [pwmMax]
        split_ifs <;> omega
      have hduty := showing_setSignedDuty h ch (max 0 (min duty 1000))
      rw [← hclamp] at hduty
      refine inv_step_of_channel (fun w => Iff.rfl) ?_
      rw [commanded, ← hclamp]
      exact hduty
  | setSignedDuty ch duty =>
      exact inv_step_of_channel (fun w => Iff.rfl) (showing_setSignedDuty h ch duty)
  | brake ch =>
      exact inv_step_of_channel (fun w => Iff.rfl) (h.onMotor (motorIndex ch) carriesOut_brake)
  | safetyTick nowMs =>
      by_cases hexpired : Expired o.motor nowMs
      · refine (showing_safetyTick h hexpired).congr fun w => ?_
        simp [step, WritesPins, hexpired, commanded]
      · have hkept : bspMotorSafetyTick nowMs o.motor = o.motor := if_neg hexpired
        rw [Inv, step, perform, hkept]
        refine h.congr fun w => ?_
        simp [WritesPins, hexpired]
  | clock tickMs => exact ⟨h.config, fun w => ⟨(h.shows w).duty, (h.shows w).hardware⟩⟩

/-! ### Reading the hardware -/

/-- Duty, compare value and direction pins of a motor belong together, and only a brake
leaves both pins high. -/
structure Described (o : Observed) (w : Wheel) : Prop where
  range : -1000 ≤ o.motor.duty w ∧ o.motor.duty w ≤ 1000
  compare : ((hardware o.motor w).compare : ℤ) = 1000 - |o.motor.duty w|
  forward : 0 < o.motor.duty w →
    (hardware o.motor w).in1 = true ∧ (hardware o.motor w).in2 = false
  backward : o.motor.duty w < 0 →
    (hardware o.motor w).in1 = false ∧ (hardware o.motor w).in2 = true
  still : o.motor.duty w = 0 → (hardware o.motor w).in1 = (hardware o.motor w).in2
  braked : (hardware o.motor w).in1 = true → (hardware o.motor w).in2 = true →
    ∃ ch, o.writer w = some (.brake ch)

/-- A call sets the duty within its limits, and leaves the other motor as it is. -/
structure Obeyed (o : Observed) (call : Call) : Prop where
  setDuty : ∀ ch duty, call = .setDuty ch duty →
    (step o call).motor.duty (motorIndex ch) = max 0 (min duty 1000)
  setSignedDuty : ∀ ch duty, call = .setSignedDuty ch duty →
    (step o call).motor.duty (motorIndex ch) = max (-1000) (min duty 1000)
  other : ∀ ch w, call.channel = some ch → w ≠ motorIndex ch →
    (step o call).motor.duty w = o.motor.duty w ∧
      hardware (step o call).motor w = hardware o.motor w

theorem brake_of_commanded {writer : Option Call} (h : commanded writer = .brake) :
    ∃ ch, writer = some (.brake ch) := by
  cases writer with
  | none => cases h
  | some call =>
      cases call with
      | brake ch => exact ⟨ch, rfl⟩
      | _ => cases h

/-- A duty is shown by its sign and its size, and never sets both pins. -/
theorem described_of_drive {o : Observed} {w : Wheel} {duty : Duty}
    (h : Shows o.motor w (.drive duty)) : Described o w := by
  obtain ⟨duty, hlo, hhi⟩ := duty
  obtain ⟨hduty, hhardware⟩ := h
  rw [Command.duty] at hduty
  rw [Command.stage] at hhardware
  dsimp only at hduty hhardware
  refine ⟨?_, ?_, ?_, ?_, ?_, ?_⟩
  · omega
  · rw [hhardware, hduty, Int.abs_eq_natAbs]
    dsimp only
    omega
  · intro hpos
    rw [hduty] at hpos
    simp [hhardware, hpos, hpos.le]
  · intro hneg
    rw [hduty] at hneg
    simp [hhardware, hneg, hneg.le]
  · intro hzero
    rw [hduty] at hzero
    simp [hhardware, hzero]
  · intro hin1 hin2
    simp only [hhardware, decide_eq_true_iff] at hin1 hin2
    omega

theorem described_of_brake {o : Observed} {w : Wheel} (h : Shows o.motor w .brake)
    (hwriter : ∃ ch, o.writer w = some (.brake ch)) : Described o w := by
  obtain ⟨hduty, hhardware⟩ := h
  rw [Command.duty] at hduty
  rw [Command.stage] at hhardware
  refine ⟨?_, ?_, ?_, ?_, ?_, fun _ _ => hwriter⟩
  · omega
  · simp [hhardware, hduty]
  · omega
  · omega
  · simp [hhardware]

theorem described_of_inv {o : Observed} (h : Inv o) (w : Wheel) : Described o w := by
  have hshows := h.shows w
  cases hcommand : commanded (o.writer w) with
  | drive duty =>
      rw [hcommand] at hshows
      exact described_of_drive hshows
  | brake =>
      rw [hcommand] at hshows
      exact described_of_brake hshows (brake_of_commanded hcommand)

/-- A call on a channel leaves the last writer of the other motor. -/
theorem writer_step_of_channel {o : Observed} {call : Call} {ch : ℕ} {w : Wheel}
    (hchannel : call.channel = some ch) (hne : w ≠ motorIndex ch) :
    (step o call).writer w = o.writer w := by
  cases call with
  | setDuty ch' _ | setSignedDuty ch' _ | brake ch' =>
      obtain rfl := Option.some.inj hchannel
      exact if_neg hne
  | safetyTick nowMs | clock tickMs => cases hchannel

theorem obeyed_of_inv (o : Observed) (call : Call) (h : Inv o) : Obeyed o call := by
  have hstep := inv_step o call h
  refine ⟨?_, ?_, ?_⟩
  · rintro ch duty rfl
    have hwriter : (step o (.setDuty ch duty)).writer (motorIndex ch) = some (.setDuty ch duty) :=
      if_pos rfl
    rw [(hstep.shows _).duty, hwriter, commanded, Command.duty, val_toDuty]
    omega
  · rintro ch duty rfl
    have hwriter : (step o (.setSignedDuty ch duty)).writer (motorIndex ch) =
        some (.setSignedDuty ch duty) := if_pos rfl
    rw [(hstep.shows _).duty, hwriter, commanded, Command.duty, val_toDuty]
  · intro ch w hchannel hne
    have hshows := hstep.shows w
    rw [writer_step_of_channel hchannel hne] at hshows
    exact ⟨hshows.duty.trans (h.shows w).duty.symm,
      hshows.hardware.trans (h.shows w).hardware.symm⟩

/-- Every run of calls after `BSP_Motor_Init`: in every state the duty describes the
hardware, and every call is obeyed. -/
theorem hardware_run (b : Board) (run : List Call) :
    EachState step (fun o => ∀ w, Described o w) (start b) run ∧
      EachStep step Obeyed (start b) run := by
  refine ⟨?_, EachStep.of_invariant inv_step obeyed_of_inv (inv_start b)⟩
  rintro pre post rfl
  exact described_of_inv (exec_invariant inv_step (inv_start b) pre)

end NuedcFirmware.Modules.MotorHardware
