import NuedcFirmware.App.DutyHold
import NuedcFirmware.App.Steering
import NuedcFirmware.Lib.WholeFloat

/-!
The control task as a machine with inputs and outputs.

An iteration gets the time, the readings of the line sensor, the encoder deltas, the
requests and the state of the IMU from outside, and puts out two target speeds and two
duties. The speed loops remember nothing that shows: the pulses of an iteration are its
input, and the wheel PIDs have neither integral nor derivative part.
-/

namespace NuedcFirmware.App

open NuedcFirmware.Lib NuedcFirmware.Platform NuedcFirmware.Common NuedcFirmware.Modules
open NuedcFirmware.Control

/-- What a control iteration gets from outside. The line sensor reads the given values, or
the levels of its channels. -/
structure TickInput where
  nowMs : UInt32
  raw : Option (List ℕ)
  level : Pin → Bool
  delta : Wheel → ℤ
  start : Bool
  stop : Bool
  duty : Option TelemetryDutyRequest
  imuReady : Bool

/-- What a control iteration puts out. -/
structure TickOutput (F : Type*) where
  targetLeft : F
  targetRight : F
  duty : Wheel → ℤ

/-- The pulses of a wheel that have not been reported. -/
def pendingPulses (encoder : BspEncoder) (w : Wheel) : ℤ := encoder.total w - encoder.reported w

variable {F : Type*} [CMath F]

/-- The inputs are there when the iteration begins. -/
def feed (i : TickInput) (fw : Firmware F) : Firmware F :=
  { fw with
    ctx := { fw.ctx with imuReady := i.imuReady }
    telemetry :=
      { fw.telemetry with
        startRequest := i.start
        stopRequest := i.stop
        dutyRequestPending := i.duty.isSome
        dutyRequest := i.duty.getD fw.telemetry.dutyRequest }
    encoder := { fw.encoder with total := fun w => fw.encoder.reported w + i.delta w }
    motor := { fw.motor with board := { fw.motor.board with input := i.level } }
    lineSensor :=
      { fw.lineSensor with
        config := { fw.lineSensor.config with readRaw := i.raw.map fun raw _ _ => raw } } }

def tick (fw : Firmware F) (i : TickInput) : Firmware F := controlTask i.nowMs (feed i fw)

def output (fw : Firmware F) : TickOutput F where
  targetLeft := fw.ctx.chassis.targetSpeedLeft
  targetRight := fw.ctx.chassis.targetSpeedRight
  duty := fw.motor.duty

/-! ### The iterations of a run -/

/-- The inputs that a control iteration of the system finds. -/
def found (nowMs : UInt32) (fw : Firmware F) : TickInput where
  nowMs := nowMs
  raw := none
  level := fw.board.input
  delta := pendingPulses fw.encoder
  start := fw.telemetry.startRequest
  stop := fw.telemetry.stopRequest
  duty := if fw.telemetry.dutyRequestPending then some fw.telemetry.dutyRequest else none
  imuReady := fw.ctx.imuReady

omit [CMath F] in
theorem feed_found (nowMs : UInt32) {fw : Firmware F} (h : fw.lineSensor.config.readRaw = none) :
    feed (found nowMs fw) fw = fw := by
  have htotal : (fun w => fw.encoder.reported w + (found nowMs fw).delta w) = fw.encoder.total := by
    funext w
    exact add_sub_cancel ..
  have hpending : (found nowMs fw).duty.isSome = fw.telemetry.dutyRequestPending := by
    rw [found]
    cases fw.telemetry.dutyRequestPending <;> rfl
  have hrequest :
      (found nowMs fw).duty.getD fw.telemetry.dutyRequest = fw.telemetry.dutyRequest := by
    rw [found]
    cases fw.telemetry.dutyRequestPending <;> rfl
  have hraw : (found nowMs fw).raw.map (fun raw (_ : Board) (_ : ℕ) => raw) =
      fw.lineSensor.config.readRaw := h.symm
  rw [feed, hpending, hrequest, hraw, htotal]
  rfl

/-- An iteration of the system is one of the machine, with the inputs that it finds. -/
theorem controlTask_eq_tick (nowMs : UInt32) {fw : Firmware F}
    (h : fw.lineSensor.config.readRaw = none) :
    controlTask nowMs fw = tick fw (found nowMs fw) := by
  rw [tick, feed_found nowMs h]
  rfl

/-- The inputs that the control iterations of a run find. -/
def inputs : Firmware F → List (Event F) → List TickInput
  | _, [] => []
  | fw, .control nowMs :: run => found nowMs fw :: inputs (controlTask nowMs fw) run
  | fw, e :: run => inputs (step fw e) run

/-- What they put out. -/
def outputs : Firmware F → List (Event F) → List (TickOutput F)
  | _, [] => []
  | fw, .control nowMs :: run => output (controlTask nowMs fw) :: outputs (controlTask nowMs fw) run
  | fw, e :: run => outputs (step fw e) run

theorem inputs_cons_of_other {e : Event F} (h : ∀ nowMs, e ≠ .control nowMs) (fw : Firmware F)
    (run : List (Event F)) : inputs fw (e :: run) = inputs (step fw e) run := by
  cases e with
  | control nowMs => exact absurd rfl (h nowMs)
  | _ => rfl

theorem outputs_cons_of_other {e : Event F} (h : ∀ nowMs, e ≠ .control nowMs) (fw : Firmware F)
    (run : List (Event F)) : outputs fw (e :: run) = outputs (step fw e) run := by
  cases e with
  | control nowMs => exact absurd rfl (h nowMs)
  | _ => rfl

/-! ### The speed loops -/

/-- The duty that the speed loop of a wheel asks for, from the pulses it gets. -/
def wheelDemand (chassis : ControlChassis F) (delta : ℤ) (w : Wheel) : ℤ :=
  let meas : F := fabsf ((toInt32 delta : ℤ) : F)
  let limit := chassis.config.speedOutLimit
  match w with
  | .left => feedForward limit chassis.config.forwardMinPulse chassis.deadZoneLeft
      chassis.targetSpeedLeft true
      (toInt16 (truncate (pidUpdate chassis.pidLeft chassis.targetSpeedLeft meas).1))
  | .right => feedForward limit chassis.config.forwardMinPulse chassis.deadZoneRight
      chassis.targetSpeedRight true
      (toInt16 (truncate (pidUpdate chassis.pidRight chassis.targetSpeedRight meas).1))

theorem speedDemand_eq (chassis : ControlChassis F) (encoder : BspEncoder) (w : Wheel) :
    speedDemand chassis encoder w = wheelDemand chassis (pendingPulses encoder w) w := by
  cases w <;> rfl

section Pulses

variable (nowMs : UInt32) (state : AppState) (fw : Firmware F)

theorem encoder_appStateSet : (appStateSet state fw).encoder = fw.encoder := by
  rw [appStateSet]
  split_ifs <;> rfl

theorem encoder_takeStopRequest : (takeStopRequest fw).encoder = fw.encoder := by
  rw [takeStopRequest]
  dsimp only
  split_ifs
  · exact encoder_appStateSet ..
  · rfl

theorem pendingPulses_resetOdometry (w : Wheel) :
    pendingPulses (resetOdometry fw).encoder w = 0 := by
  cases w <;> rfl

/-- A start that is obeyed takes the pulses away. -/
theorem pendingPulses_takeStartRequest (w : Wheel) :
    pendingPulses (takeStartRequest fw).encoder w =
      if fw.telemetry.startRequest ∧ fw.ctx.imuReady then 0 else pendingPulses fw.encoder w := by
  rw [takeStartRequest]
  dsimp only [telemetryConsumeStartRequest]
  split_ifs
  · rw [encoder_appStateSet]
    exact pendingPulses_resetOdometry _ w
  · rfl

theorem encoder_takeDutyRequest : (takeDutyRequest nowMs fw).encoder = fw.encoder := by
  rw [takeDutyRequest]
  dsimp only
  split
  · rfl
  · exact encoder_appStateSet ..

theorem encoder_entered :
    (entered nowMs fw).encoder = (appStateTick nowMs (fw.setTick nowMs)).encoder := by
  rw [entered, appMissionTick]
  split_ifs <;> rfl

theorem pendingPulses_entered (w : Wheel) :
    pendingPulses (entered nowMs fw).encoder w =
      if fw.telemetry.startRequest ∧ fw.ctx.imuReady then 0 else pendingPulses fw.encoder w := by
  obtain ⟨-, -, htelemetry, hkeeps⟩ := takeStopRequest_spec (fw.setTick nowMs)
  rw [encoder_entered, appStateTick, encoder_takeDutyRequest, pendingPulses_takeStartRequest,
    encoder_takeStopRequest, htelemetry, hkeeps.imuReady]
  rfl

/-- The pulses that a control iteration finds. A start that it takes clears them. -/
def foundPulses (w : Wheel) : ℤ :=
  if fw.telemetry.startRequest ∧ fw.ctx.imuReady then 0 else pendingPulses fw.encoder w

end Pulses

/-! ### When a speed loop asks for nothing -/

/-- The chassis as the application sets it up. -/
def carChassis : ControlChassis F := controlChassisInit kChassisConfig 18.0 0.0 0.0

theorem speedOutLimit_carChassis : (carChassis : ControlChassis ℝ).config.speedOutLimit = 1000 := by
  norm_num [carChassis, controlChassisInit, normalizeConfig, kChassisConfig]

theorem tuning_carChassis :
    (carChassis : ControlChassis ℝ).pidLeft = pidInit 18.0 0.0 0.0 (-1000) 1000 ∧
      (carChassis : ControlChassis ℝ).pidRight = pidInit 18.0 0.0 0.0 (-1000) 1000 := by
  rw [← speedOutLimit_carChassis]
  exact ⟨rfl, rfl⟩

theorem truncate_nonpos_iff (x : ℝ) : truncate x ≤ 0 ↔ x < 1 := by
  show (if 0 ≤ x then ⌊x⌋ else ⌈x⌉) ≤ 0 ↔ x < 1
  split_ifs with hx
  · rw [Int.floor_le_iff]
    norm_num
  · have hneg := not_le.mp hx
    exact iff_of_true (Int.ceil_le.mpr (by simpa using hneg.le)) (hneg.trans one_pos)

/-- The output of a speed loop, as an integer, is within the limits, and positive if and only
if the target is ahead of the pulses by a part of the gain. -/
theorem truncate_speedLoop {p : PID ℝ} (h : p.SameTuning (pidInit 18.0 0.0 0.0 (-1000) 1000))
    (target meas : ℝ) :
    (-1000 ≤ truncate (pidUpdate p target meas).1 ∧
        truncate (pidUpdate p target meas).1 ≤ 1000) ∧
      (truncate (pidUpdate p target meas).1 ≤ 0 ↔ 18 * (target - meas) < 1) := by
  have hki : p.ki = 0 := h.ki.trans (by norm_num [pidInit])
  have hkd : p.kd = 0 := h.kd.trans (by norm_num [pidInit])
  have hkp : p.kp = 18 := h.kp.trans (by norm_num [pidInit])
  have hmin : p.outMin = -1000 := h.outMin
  have hmax : p.outMax = 1000 := h.outMax
  have hout : (pidUpdate p target meas).1 = max (-1000) (min (18 * (target - meas)) 1000) := by
    rw [fst_pidUpdate, lastRawOutput_pidUpdate hki, hkd, hkp, zero_mul, add_zero, PID.clampOutput,
      hmin, hmax]
    split_ifs <;> grind
  rw [hout]
  refine ⟨CFloat.Whole.truncate_mem (exact_of_mem (by decide) (by decide))
    (exact_of_mem (by decide) (by decide)) ?_ ?_, ?_⟩
  · norm_num
  · norm_num
  · rw [truncate_nonpos_iff, max_lt_iff, min_lt_iff]
    norm_num

/-- A speed loop without a dead zone asks for no duty if and only if the target is not ahead
of the pulses by an eighteenth. -/
theorem speedLoop_nonpos_iff {p : PID ℝ} (h : p.SameTuning (pidInit 18.0 0.0 0.0 (-1000) 1000))
    {limit forwardMinPulse deadZone target meas : ℝ} (hlimit : truncate limit = 1000)
    (hdead : truncate deadZone = 0) :
    feedForward limit forwardMinPulse deadZone target true
        (toInt16 (truncate (pidUpdate p target meas).1)) ≤ 0 ↔
      18 * (target - meas) < 1 := by
  obtain ⟨⟨hlo, hhi⟩, hsign⟩ := truncate_speedLoop h target meas
  -- within the limit the feed-forward part adds nothing
  have hkept : feedForward limit forwardMinPulse deadZone target true
      (truncate (pidUpdate p target meas).1) = truncate (pidUpdate p target meas).1 := by
    rw [feedForward, hlimit, hdead, add_zero]
    dsimp only
    rw [if_neg (not_lt.mpr hhi), toInt16_of_mem (by omega) (by omega), ite_self]
  rw [toInt16_of_mem (by omega) (by omega), hkept, hsign]

theorem wheelDemand_nonpos_iff {chassis : ControlChassis ℝ} (h : SameSetup chassis carChassis)
    {target : Wheel → ℝ} (hleft : chassis.targetSpeedLeft = target .left)
    (hright : chassis.targetSpeedRight = target .right) (delta : ℤ) (w : Wheel) :
    wheelDemand chassis delta w ≤ 0 ↔ 18 * (target w - |((toInt32 delta : ℤ) : ℝ)|) < 1 := by
  have hlimit : truncate chassis.config.speedOutLimit = 1000 := by
    rw [h.config, speedOutLimit_carChassis]
    exact_mod_cast truncate_intCast (K := ℝ) 1000
  have hzero : truncate (0.0 : ℝ) = 0 := by
    have hcast : (0.0 : ℝ) = ((0 : ℤ) : ℝ) := by norm_num
    rw [hcast, truncate_intCast]
  cases w with
  | left =>
      rw [wheelDemand, hleft]
      exact speedLoop_nonpos_iff (tuning_carChassis.1 ▸ h.pidLeft) hlimit
        (h.deadZoneLeft ▸ hzero)
  | right =>
      rw [wheelDemand, hright]
      exact speedLoop_nonpos_iff (tuning_carChassis.2 ▸ h.pidRight) hlimit
        (h.deadZoneRight ▸ hzero)

end NuedcFirmware.App
