import NuedcFirmware.Common.Pid
import NuedcFirmware.Modules.Encoder

/-!
The chassis controller `chassis.c`, in its variant with wheel encoders:
odometry, the speed loop of each wheel, and the direct duty test.

Where the source treats the two wheels by twin lines, a definition takes the
wheel; the twin fields of the structure are kept.
-/

namespace NuedcFirmware.Control

open NuedcFirmware.Lib NuedcFirmware.Platform NuedcFirmware.Common NuedcFirmware.Modules

structure ControlPose2D (F : Type*) where
  x : F
  y : F
  theta : F

structure ControlChassisConfig (F : Type*) where
  leftPulsesPerCm : F
  rightPulsesPerCm : F
  wheelBaseCm : F
  openLoopCmPerPwmMs : F
  speedOutLimit : F
  forwardMinPulse : F

structure ControlChassis (F : Type*) where
  config : ControlChassisConfig F
  pidLeft : PID F
  pidRight : PID F
  pose : ControlPose2D F
  targetSpeedLeft : F
  targetSpeedRight : F
  measuredSpeedLeft : F
  measuredSpeedRight : F
  segmentDistCm : F
  deadZoneLeft : F
  deadZoneRight : F
  debugPwmActive : Bool
  debugPwmLeft : ℤ
  debugPwmRight : ℤ
  debugPwmDeadlineMs : UInt32

section Float

variable {F : Type*} [CFloat F]

/-- `(float)M_PI`, which is 13176795 / 2 ^ 22. -/
def mPi : F := 3.1415927410125732421875

/-- The first loop of `wrap_pi_local`, for at most `fuel` rounds. -/
def wrapDown : ℕ → F → F
  | 0, x => x
  | fuel + 1, x => if x > mPi then wrapDown fuel (x - 2.0 * mPi) else x

/-- The second loop of `wrap_pi_local`, for at most `fuel` rounds. -/
def wrapUp : ℕ → F → F
  | 0, x => x
  | fuel + 1, x => if x < -mPi then wrapUp fuel (x + 2.0 * mPi) else x

/-- `wrap_pi_local`. A round takes away more than 1, so the number of rounds is
at most the integer part of the argument and one. -/
def wrapPiLocal (x : F) : F :=
  let fuel := (truncate x).natAbs + 1
  wrapUp fuel (wrapDown fuel x)

/-- `normalize_config`. -/
def normalizeConfig (config : ControlChassisConfig F) : ControlChassisConfig F where
  leftPulsesPerCm := if config.leftPulsesPerCm ≤ 0.0 then 73.44 else config.leftPulsesPerCm
  rightPulsesPerCm := if config.rightPulsesPerCm ≤ 0.0 then 73.14 else config.rightPulsesPerCm
  wheelBaseCm := if config.wheelBaseCm ≤ 0.0 then 13.5 else config.wheelBaseCm
  openLoopCmPerPwmMs :=
    if config.openLoopCmPerPwmMs ≤ 0.0 then 0.00022 else config.openLoopCmPerPwmMs
  speedOutLimit := if config.speedOutLimit ≤ 0.0 then 1000.0 else config.speedOutLimit
  forwardMinPulse := if config.forwardMinPulse < 0.0 then 0.03 else config.forwardMinPulse

/-- `Control_Chassis_Init` with a configuration, all other fields zero. The
encoders are initialised by its caller from the board. -/
def controlChassisInit (config : ControlChassisConfig F) (speedKp speedKi speedKd : F) :
    ControlChassis F :=
  let config := normalizeConfig config
  let pid := pidInit speedKp speedKi speedKd (-config.speedOutLimit) config.speedOutLimit
  { config
    pidLeft := pid
    pidRight := pid
    pose := ⟨0.0, 0.0, 0.0⟩
    targetSpeedLeft := 0.0
    targetSpeedRight := 0.0
    measuredSpeedLeft := 0.0
    measuredSpeedRight := 0.0
    segmentDistCm := 0.0
    deadZoneLeft := 0.0
    deadZoneRight := 0.0
    debugPwmActive := false
    debugPwmLeft := 0
    debugPwmRight := 0
    debugPwmDeadlineMs := 0 }

/-- `Control_Chassis_PollFastInputs`. -/
def controlChassisPollFastInputs (encoder : BspEncoder) (b : Board) : BspEncoder :=
  bspEncoderPoll b encoder

def controlChassisResetOdometry (chassis : ControlChassis F) (pose : ControlPose2D F)
    (encoder : BspEncoder) (b : Board) : ControlChassis F × BspEncoder :=
  ({ chassis with pose, segmentDistCm := 0.0 }, bspEncoderReset 1 b (bspEncoderReset 0 b encoder))

def controlChassisResetSegmentDistance (chassis : ControlChassis F) : ControlChassis F :=
  { chassis with segmentDistCm := 0.0 }

def controlChassisSetTargetSpeeds (chassis : ControlChassis F) (left right : F) :
    ControlChassis F :=
  { chassis with targetSpeedLeft := left, targetSpeedRight := right }

def controlChassisSetDeadZone (chassis : ControlChassis F) (left right : F) :
    ControlChassis F :=
  { chassis with deadZoneLeft := left, deadZoneRight := right }

def controlChassisSetDebugDuty (chassis : ControlChassis F) (leftPwm rightPwm : ℤ)
    (nowMs holdMs : UInt32) : ControlChassis F :=
  let holdMs := if holdMs = 0 then 800 else holdMs
  { chassis with
    debugPwmActive := true
    debugPwmLeft := leftPwm
    debugPwmRight := rightPwm
    debugPwmDeadlineMs := nowMs + holdMs }

def controlChassisClearDebugDuty (chassis : ControlChassis F) : ControlChassis F :=
  { chassis with
    debugPwmActive := false
    debugPwmLeft := 0
    debugPwmRight := 0
    debugPwmDeadlineMs := 0 }

/-- The duty that a wheel's speed loop asks for: the PID output, and when the car
runs forward the dead zone on top, up to the limit. -/
def feedForward (limit forwardMinPulse deadZone target : F) (run : Bool) (pwm : ℤ) : ℤ :=
  if run ∧ target > forwardMinPulse ∧ pwm > 0 then
    let ff := pwm + truncate deadZone
    let ff := if ff > truncate limit then truncate limit else ff
    toInt16 ff
  else pwm

end Float

variable {F : Type*} [CMath F]

/-- `integrate_odometry`. -/
def integrateOdometry (chassis : ControlChassis F) (dsLeftCm dsRightCm : F) :
    ControlChassis F :=
  let ds := 0.5 * (dsLeftCm + dsRightCm)
  let dtheta := (dsRightCm - dsLeftCm) / chassis.config.wheelBaseCm
  let mid := chassis.pose.theta + 0.5 * dtheta
  { chassis with
    pose :=
      { x := chassis.pose.x + ds * cosf mid
        y := chassis.pose.y + ds * sinf mid
        theta := wrapPiLocal (chassis.pose.theta + dtheta) }
    segmentDistCm := chassis.segmentDistCm + fabsf ds }

/-- The first half of `Control_Chassis_Tick`: odometry and the two speed loops.
The duties of the loops come with the chassis and the encoders. -/
def measureSpeeds (chassis : ControlChassis F) (encoder : BspEncoder) :
    ControlChassis F × BspEncoder × ℤ × ℤ :=
  let (deltaLeft, encoder) := bspEncoderGetDelta 0 encoder
  let (deltaRight, encoder) := bspEncoderGetDelta 1 encoder
  let measLeft : F := fabsf (deltaLeft : F)
  let measRight : F := fabsf (deltaRight : F)
  let chassis := integrateOdometry chassis
    (measLeft / chassis.config.leftPulsesPerCm) (measRight / chassis.config.rightPulsesPerCm)
  let chassis := { chassis with measuredSpeedLeft := measLeft, measuredSpeedRight := measRight }
  let (outLeft, pidLeft) := pidUpdate chassis.pidLeft chassis.targetSpeedLeft measLeft
  let (outRight, pidRight) := pidUpdate chassis.pidRight chassis.targetSpeedRight measRight
  ({ chassis with pidLeft, pidRight }, encoder, toInt16 (truncate outLeft),
    toInt16 (truncate outRight))

/-- `BSP_Motor_SetDuty` on both channels. -/
def setDuties (left right : ℤ) (motor : BspMotor) : BspMotor :=
  bspMotorSetDuty 1 right (bspMotorSetDuty 0 left motor)

def controlChassisTick (chassis : ControlChassis F) (run : Bool) (nowMs : UInt32)
    (encoder : BspEncoder) (motor : BspMotor) : ControlChassis F × BspEncoder × BspMotor :=
  let limit := chassis.config.speedOutLimit
  let (chassis, encoder, pwmLeft, pwmRight) := measureSpeeds chassis encoder
  if run then
    let pwmLeft := feedForward limit chassis.config.forwardMinPulse chassis.deadZoneLeft
      chassis.targetSpeedLeft run pwmLeft
    let pwmRight := feedForward limit chassis.config.forwardMinPulse chassis.deadZoneRight
      chassis.targetSpeedRight run pwmRight
    (chassis, encoder, setDuties pwmLeft pwmRight motor)
  else if chassis.debugPwmActive then
    if nowMs ≥ chassis.debugPwmDeadlineMs then
      (controlChassisClearDebugDuty chassis, encoder, setDuties 0 0 motor)
    else (chassis, encoder, setDuties chassis.debugPwmLeft chassis.debugPwmRight motor)
  else (chassis, encoder, setDuties 0 0 motor)

/-! ### The direct duty test -/

/-- The direct duty test as the chassis holds it. -/
structure DirectDuty where
  active : Bool
  left : ℤ
  right : ℤ
  deadlineMs : UInt32

def DirectDuty.duty (d : DirectDuty) : Wheel → ℤ
  | .left => d.left
  | .right => d.right

/-- `Control_Chassis_ClearDebugDuty`. -/
def DirectDuty.cleared : DirectDuty := ⟨false, 0, 0, 0⟩

section Direct

variable {F : Type*}

def ControlChassis.direct (chassis : ControlChassis F) : DirectDuty where
  active := chassis.debugPwmActive
  left := chassis.debugPwmLeft
  right := chassis.debugPwmRight
  deadlineMs := chassis.debugPwmDeadlineMs

variable (chassis : ControlChassis F)

@[simp] theorem direct_controlChassisClearDebugDuty :
    (controlChassisClearDebugDuty chassis).direct = .cleared := rfl

end Direct

/-! ### What a tick commands -/

variable (chassis : ControlChassis F) (run : Bool) (nowMs : UInt32) (encoder : BspEncoder)
  (motor : BspMotor)

@[simp] theorem direct_measureSpeeds :
    (measureSpeeds chassis encoder).1.direct = chassis.direct := rfl

/-- The duty a wheel's speed loop asks for while the car runs. -/
def speedDemand (w : Wheel) : ℤ :=
  let (measured, _, pwmLeft, pwmRight) := measureSpeeds chassis encoder
  let limit := chassis.config.speedOutLimit
  match w with
  | .left => feedForward limit measured.config.forwardMinPulse measured.deadZoneLeft
      measured.targetSpeedLeft true pwmLeft
  | .right => feedForward limit measured.config.forwardMinPulse measured.deadZoneRight
      measured.targetSpeedRight true pwmRight

/-- The duty a tick commands to a wheel: that of the speed loop while the car runs,
that of a direct duty test before its deadline, else 0. -/
def commandedDuty (w : Wheel) : ℤ :=
  if run then speedDemand chassis encoder w
  else if chassis.direct.active ∧ nowMs < chassis.direct.deadlineMs then chassis.direct.duty w
  else 0

theorem motor_controlChassisTick :
    (controlChassisTick chassis run nowMs encoder motor).2.2 =
      setDuties (commandedDuty chassis run nowMs encoder .left)
        (commandedDuty chassis run nowMs encoder .right) motor := by
  cases run with
  | true => rfl
  | false =>
      have hactive : (measureSpeeds chassis encoder).1.debugPwmActive = chassis.direct.active := rfl
      have hdeadline :
          (measureSpeeds chassis encoder).1.debugPwmDeadlineMs = chassis.direct.deadlineMs := rfl
      simp only [controlChassisTick, commandedDuty, Bool.false_eq_true, if_false, hactive, hdeadline]
      by_cases ha : chassis.direct.active = true
      · by_cases hd : nowMs < chassis.direct.deadlineMs
        · simp only [ha, hd, if_true, and_self, ge_iff_le, UInt32.not_le.mpr hd, if_false]
          rfl
        · simp only [ha, hd, if_true, and_false, ge_iff_le, UInt32.not_lt.mp hd, if_false]
      · simp only [ha, Bool.false_eq_true, false_and, if_false]

/-- A tick ends the direct duty test when the car does not run and the deadline is
reached, and does not touch it otherwise. -/
theorem direct_controlChassisTick :
    (controlChassisTick chassis run nowMs encoder motor).1.direct =
      if run = false ∧ chassis.direct.active ∧ chassis.direct.deadlineMs ≤ nowMs then .cleared
      else chassis.direct := by
  cases run with
  | true => rfl
  | false =>
      have hactive : (measureSpeeds chassis encoder).1.debugPwmActive = chassis.direct.active := rfl
      have hdeadline :
          (measureSpeeds chassis encoder).1.debugPwmDeadlineMs = chassis.direct.deadlineMs := rfl
      simp only [controlChassisTick, Bool.false_eq_true, if_false, hactive, hdeadline, true_and]
      by_cases ha : chassis.direct.active = true
      · by_cases hd : chassis.direct.deadlineMs ≤ nowMs
        · simp [ha, hd]
        · simp [ha, hd]
      · simp [ha]

@[simp] theorem input_setDuties (left right : ℤ) (motor : BspMotor) :
    (setDuties left right motor).board.input = motor.board.input := by
  simp [setDuties]

section SetDuties

variable {motor : BspMotor} (h : motor.Coherent) (left right : ℤ)
include h

theorem coherent_setDuties : (setDuties left right motor).Coherent :=
  coherent_bspMotorSetDuty (coherent_bspMotorSetDuty h 0 left) 1 right

theorem duty_setDuties (w : Wheel) :
    (setDuties left right motor).duty w =
      max 0 (min (match w with
        | .left => left
        | .right => right) 1000) := by
  rw [setDuties, duty_bspMotorSetDuty (coherent_bspMotorSetDuty h 0 left),
    duty_bspMotorSetDuty h]
  cases w <;> simp [motorIndex]

theorem duty_setDuties_zero (w : Wheel) : (setDuties 0 0 motor).duty w = 0 := by
  rw [duty_setDuties h]
  cases w <;> rfl

end SetDuties

end NuedcFirmware.Control
