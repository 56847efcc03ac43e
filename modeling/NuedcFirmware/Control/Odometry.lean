import NuedcFirmware.Control.Heading
import NuedcFirmware.Lib.Run

/-!
Odometry over whole runs of the chassis: ticks, resets and settings in any order.

Between two ticks the decoder counts some signed number of pulses on each wheel. Everything
odometry does with them is in `odometry_tick`: a tick takes what has not been reported,
drops its sign, and advances pose and distance. The other calls leave the odometry alone,
apart from what they reset (`odometry_step`).
-/

namespace NuedcFirmware.Control

open NuedcFirmware.Lib NuedcFirmware.Platform NuedcFirmware.Common NuedcFirmware.Modules

/-- The chassis with its encoders and motors. -/
structure Drivetrain (F : Type*) where
  chassis : ControlChassis F
  encoder : BspEncoder
  motor : BspMotor

/-- The calls of `chassis.h`. A tick comes with the pulses that each wheel has been turned
since the last one. -/
inductive ChassisCall (F : Type*)
  | tick (delta : Wheel → Int32) (run : Bool) (nowMs : UInt32)
  | resetOdometry (pose : ControlPose2D F) (b : Board)
  | resetSegmentDistance
  | setTargetSpeeds (left right : F)
  | setDeadZone (left right : F)
  | setDebugDuty (leftPwm rightPwm : ℤ) (nowMs holdMs : UInt32)
  | clearDebugDuty

section Step

variable {F : Type*} [CMath F]

/-- The decoder has counted. -/
def turnWheels (delta : Wheel → Int32) (encoder : BspEncoder) : BspEncoder :=
  { encoder with total := fun w => encoder.total w + (delta w).toInt }

def Drivetrain.step (d : Drivetrain F) : ChassisCall F → Drivetrain F
  | .tick delta run nowMs =>
      let (chassis, encoder, motor) :=
        controlChassisTick d.chassis run nowMs (turnWheels delta d.encoder) d.motor
      { chassis, encoder, motor }
  | .resetOdometry pose b =>
      let (chassis, encoder) := controlChassisResetOdometry d.chassis pose d.encoder b
      { d with chassis, encoder }
  | .resetSegmentDistance => { d with chassis := controlChassisResetSegmentDistance d.chassis }
  | .setTargetSpeeds left right =>
      { d with chassis := controlChassisSetTargetSpeeds d.chassis left right }
  | .setDeadZone left right =>
      { d with chassis := controlChassisSetDeadZone d.chassis left right }
  | .setDebugDuty leftPwm rightPwm nowMs holdMs =>
      { d with chassis := controlChassisSetDebugDuty d.chassis leftPwm rightPwm nowMs holdMs }
  | .clearDebugDuty => { d with chassis := controlChassisClearDebugDuty d.chassis }

/-- `Control_Chassis_Init` with its encoders. -/
def Drivetrain.init (config : ControlChassisConfig F) (speedKp speedKi speedKd : F) (b : Board)
    (motor : BspMotor) : Drivetrain F where
  chassis := controlChassisInit config speedKp speedKi speedKd
  encoder := bspEncoderInit b
  motor := motor

end Step

section Odometry

variable {F : Type*} [CMath F]

/-- The part of the chassis that odometry works on. -/
structure Odometry (F : Type*) where
  config : ControlChassisConfig F
  pose : ControlPose2D F
  segmentDistCm : F

def ControlChassis.odometry {F : Type*} (chassis : ControlChassis F) : Odometry F :=
  ⟨chassis.config, chassis.pose, chassis.segmentDistCm⟩

/-- The way a wheel has gone for odometry. -/
def travelCm (pulsesPerCm : F) (delta : Int32) : F := fabsf ((delta.toInt : ℤ) : F) / pulsesPerCm

/-- `integrate_odometry` on the part it works on. -/
def Odometry.advance (o : Odometry F) (dsLeftCm dsRightCm : F) : Odometry F :=
  let ds := 0.5 * (dsLeftCm + dsRightCm)
  let dtheta := (dsRightCm - dsLeftCm) / o.config.wheelBaseCm
  let mid := o.pose.theta + 0.5 * dtheta
  { o with
    pose :=
      { x := o.pose.x + ds * cosf mid
        y := o.pose.y + ds * sinf mid
        theta := wrapPiLocal (o.pose.theta + dtheta) }
    segmentDistCm := o.segmentDistCm + fabsf ds }

/-- The heading a tick arrives at, before it is wrapped. -/
def Odometry.turned (o : Odometry F) (delta : Wheel → Int32) : F :=
  o.pose.theta + (travelCm o.config.rightPulsesPerCm (delta .right) -
    travelCm o.config.leftPulsesPerCm (delta .left)) / o.config.wheelBaseCm

/-- What a tick does to the odometry. -/
def Odometry.tick (o : Odometry F) (delta : Wheel → Int32) : Odometry F :=
  o.advance (travelCm o.config.leftPulsesPerCm (delta .left))
    (travelCm o.config.rightPulsesPerCm (delta .right))

theorem theta_tick (o : Odometry F) (delta : Wheel → Int32) :
    (o.tick delta).pose.theta = wrapPiLocal (o.turned delta) := rfl

theorem odometry_measureSpeeds (chassis : ControlChassis F) (encoder : BspEncoder) :
    (measureSpeeds chassis encoder).1.odometry =
      chassis.odometry.advance
        (fabsf ((bspEncoderGetDelta 0 encoder).1 : F) / chassis.config.leftPulsesPerCm)
        (fabsf ((bspEncoderGetDelta 1 (bspEncoderGetDelta 0 encoder).2).1 : F) /
          chassis.config.rightPulsesPerCm) := rfl

theorem odometry_controlChassisTick (chassis : ControlChassis F) (run : Bool) (nowMs : UInt32)
    (encoder : BspEncoder) (motor : BspMotor) :
    (controlChassisTick chassis run nowMs encoder motor).1.odometry =
      (measureSpeeds chassis encoder).1.odometry := by
  rw [controlChassisTick]
  dsimp only
  split_ifs <;> rfl

/-- A tick reports all pulses. -/
theorem encoder_controlChassisTick (chassis : ControlChassis F) (run : Bool) (nowMs : UInt32)
    (encoder : BspEncoder) (motor : BspMotor) :
    (controlChassisTick chassis run nowMs encoder motor).2.1.total = encoder.total ∧
      (controlChassisTick chassis run nowMs encoder motor).2.1.reported = encoder.total := by
  have hreported : (bspEncoderGetDelta 1 (bspEncoderGetDelta 0 encoder).2).2.reported =
      encoder.total := by
    funext w
    cases w <;> rfl
  rw [controlChassisTick]
  dsimp only
  split_ifs <;> exact ⟨rfl, hreported⟩

/-- All pulses are reported. -/
def Drivetrain.Settled (d : Drivetrain F) : Prop := d.encoder.reported = d.encoder.total

omit [CMath F] in
theorem Drivetrain.Settled.getDelta_turnWheels {d : Drivetrain F} (h : d.Settled)
    (delta : Wheel → Int32) (ch : ℕ) :
    (bspEncoderGetDelta ch (turnWheels delta d.encoder)).1 = (delta (encoderChannel ch)).toInt := by
  have hreported : d.encoder.reported (encoderChannel ch) = d.encoder.total (encoderChannel ch) :=
    congrFun h _
  have hdelta : (bspEncoderGetDelta ch (turnWheels delta d.encoder)).1 =
      toInt32 (d.encoder.total (encoderChannel ch) + (delta (encoderChannel ch)).toInt -
        d.encoder.reported (encoderChannel ch)) := rfl
  rw [hdelta, hreported, add_sub_cancel_left]
  exact toInt32_of_mem (Int32.le_toInt _) (Int32.toInt_lt _)

/-- What a call does to the odometry. -/
def Odometry.step (o : Odometry F) : ChassisCall F → Odometry F
  | .tick delta _ _ => o.tick delta
  | .resetOdometry pose _ => { o with pose, segmentDistCm := 0.0 }
  | .resetSegmentDistance => { o with segmentDistCm := 0.0 }
  | _ => o

section Settled

variable {d : Drivetrain F} (h : d.Settled)
include h

theorem Drivetrain.Settled.step (call : ChassisCall F) : (d.step call).Settled := by
  cases call with
  | tick delta run nowMs =>
      obtain ⟨htotal, hreported⟩ := encoder_controlChassisTick d.chassis run nowMs
        (turnWheels delta d.encoder) d.motor
      exact hreported.trans htotal.symm
  | resetOdometry pose b =>
      funext w
      cases w <;> rfl
  | _ => exact h

theorem odometry_step (call : ChassisCall F) :
    (d.step call).chassis.odometry = d.chassis.odometry.step call := by
  cases call with
  | tick delta run nowMs =>
      have hright : (bspEncoderGetDelta 1
          (bspEncoderGetDelta 0 (turnWheels delta d.encoder)).2).1 = (delta .right).toInt :=
        h.getDelta_turnWheels delta 1
      have hleft : (bspEncoderGetDelta 0 (turnWheels delta d.encoder)).1 = (delta .left).toInt :=
        h.getDelta_turnWheels delta 0
      have htick := odometry_controlChassisTick d.chassis run nowMs (turnWheels delta d.encoder)
        d.motor
      rw [odometry_measureSpeeds, hright, hleft] at htick
      exact htick
  | _ => rfl

theorem odometry_exec (calls : List (ChassisCall F)) :
    (exec Drivetrain.step d calls).chassis.odometry =
      exec Odometry.step d.chassis.odometry calls := by
  induction calls generalizing d with
  | nil => rfl
  | cons call calls ih =>
      rw [exec_cons, exec_cons, ih (h.step call), odometry_step h]

end Settled

theorem settled_init (config : ControlChassisConfig F) (speedKp speedKi speedKd : F) (b : Board)
    (motor : BspMotor) : (Drivetrain.init config speedKp speedKi speedKd b motor).Settled := rfl

theorem config_exec (o : Odometry F) (calls : List (ChassisCall F)) :
    (exec Odometry.step o calls).config = o.config := by
  refine exec_invariant (I := fun o' : Odometry F => o'.config = o.config) (fun o' call h => ?_) rfl
    calls
  cases call <;> exact h

end Odometry

/-! ### A configuration that can be divided by -/

structure Divisible (config : ControlChassisConfig ℝ) : Prop where
  left : 0 < config.leftPulsesPerCm
  right : 0 < config.rightPulsesPerCm
  wheelBase : 0 < config.wheelBaseCm

theorem divisible_normalizeConfig (config : ControlChassisConfig ℝ) :
    Divisible (normalizeConfig config) := by
  refine ⟨?_, ?_, ?_⟩
  all_goals
    simp only [normalizeConfig]
    split_ifs with hdefault
    · norm_num
    · norm_num at hdefault ⊢
      exact hdefault

end NuedcFirmware.Control
