import NuedcFirmware.App.Drive

/-!
What steers the car.

In RUN an iteration of the control task asks the line tracker for a turn and spreads it
over the two target speeds; otherwise both targets are 0 and the tracker rests. The
tracker works on the line PID and the line sensor, which nothing else in the system
touches: neither the requests (`keeps_appStateTick`) nor any other step
(`keeps_step`).
-/

namespace NuedcFirmware.App

open NuedcFirmware.Lib NuedcFirmware.Platform NuedcFirmware.Common NuedcFirmware.Modules
open NuedcFirmware.Control NuedcFirmware.System

section Chassis

variable {F : Type*}

/-- Two chassis agree in what the application sets up once. -/
structure SameSetup (chassis chassis' : ControlChassis F) : Prop where
  config : chassis.config = chassis'.config
  pidLeft : chassis.pidLeft.SameTuning chassis'.pidLeft
  pidRight : chassis.pidRight.SameTuning chassis'.pidRight
  deadZoneLeft : chassis.deadZoneLeft = chassis'.deadZoneLeft
  deadZoneRight : chassis.deadZoneRight = chassis'.deadZoneRight

theorem SameSetup.refl (chassis : ControlChassis F) : SameSetup chassis chassis :=
  ⟨rfl, ⟨rfl, rfl, rfl, rfl, rfl⟩, ⟨rfl, rfl, rfl, rfl, rfl⟩, rfl, rfl⟩

theorem SameSetup.trans {c c' c'' : ControlChassis F} (h : SameSetup c c')
    (h' : SameSetup c' c'') : SameSetup c c'' :=
  ⟨h.config.trans h'.config, h.pidLeft.trans h'.pidLeft, h.pidRight.trans h'.pidRight,
    h.deadZoneLeft.trans h'.deadZoneLeft, h.deadZoneRight.trans h'.deadZoneRight⟩

/-- Taking the requests keeps the steering. -/
structure KeepsSteering (fw fw' : Firmware F) : Prop where
  linePid : fw'.ctx.linePid = fw.ctx.linePid
  lineSensor : fw'.lineSensor = fw.lineSensor
  setup : SameSetup fw'.ctx.chassis fw.ctx.chassis
  input : fw'.board.input = fw.board.input

theorem KeepsSteering.trans {fw fw' fw'' : Firmware F} (h : KeepsSteering fw fw')
    (h' : KeepsSteering fw' fw'') : KeepsSteering fw fw'' where
  linePid := h'.linePid.trans h.linePid
  lineSensor := h'.lineSensor.trans h.lineSensor
  setup := h'.setup.trans h.setup
  input := h'.input.trans h.input

theorem KeepsSteering.of_eq {fw fw' : Firmware F} (hpid : fw'.ctx.linePid = fw.ctx.linePid)
    (hsensor : fw'.lineSensor = fw.lineSensor) (hchassis : fw'.ctx.chassis = fw.ctx.chassis)
    (hinput : fw'.board.input = fw.board.input) : KeepsSteering fw fw' :=
  ⟨hpid, hsensor, hchassis ▸ SameSetup.refl _, hinput⟩

end Chassis

variable {F : Type*} [CMath F]
/-! ### Taking the requests -/

section Requests

variable (nowMs : UInt32) (state : AppState) (fw : Firmware F)

theorem keepsSteering_appStateSet : KeepsSteering fw (appStateSet state fw) := by
  rw [appStateSet]
  split_ifs
  · exact ⟨rfl, rfl, ⟨rfl, ⟨rfl, rfl, rfl, rfl, rfl⟩, ⟨rfl, rfl, rfl, rfl, rfl⟩, rfl, rfl⟩,
      input_setDuties 0 0 fw.motor⟩
  · exact .of_eq rfl rfl rfl rfl

omit [CMath F] in
theorem keepsSteering_telemetry (telemetry : Telemetry) :
    KeepsSteering fw { fw with telemetry } := .of_eq rfl rfl rfl rfl

theorem keepsSteering_resetOdometry : KeepsSteering fw (resetOdometry fw) :=
  ⟨rfl, rfl, ⟨rfl, ⟨rfl, rfl, rfl, rfl, rfl⟩, ⟨rfl, rfl, rfl, rfl, rfl⟩, rfl, rfl⟩, rfl⟩

theorem keepsSteering_takeStopRequest : KeepsSteering fw (takeStopRequest fw) := by
  rw [takeStopRequest]
  dsimp only
  split_ifs
  · exact (keepsSteering_telemetry fw _).trans (keepsSteering_appStateSet ..)
  · exact keepsSteering_telemetry fw _

theorem keepsSteering_takeStartRequest : KeepsSteering fw (takeStartRequest fw) := by
  rw [takeStartRequest]
  dsimp only
  split_ifs
  · exact ((keepsSteering_telemetry fw _).trans (keepsSteering_resetOdometry _)).trans
      (keepsSteering_appStateSet ..)
  · exact keepsSteering_telemetry fw _

theorem keepsSteering_takeDutyRequest : KeepsSteering fw (takeDutyRequest nowMs fw) := by
  rw [takeDutyRequest]
  dsimp only
  split
  · exact keepsSteering_telemetry fw _
  · have hset := keepsSteering_appStateSet .idle
      { fw with telemetry := (telemetryConsumeDutyRequest fw.telemetry).2 }
    exact ⟨hset.linePid, hset.lineSensor, ⟨hset.setup.config, hset.setup.pidLeft,
      hset.setup.pidRight, hset.setup.deadZoneLeft, hset.setup.deadZoneRight⟩, hset.input⟩

theorem keepsSteering_appStateTick : KeepsSteering fw (appStateTick nowMs fw) :=
  ((keepsSteering_takeStopRequest fw).trans (keepsSteering_takeStartRequest _)).trans
    (keepsSteering_takeDutyRequest nowMs _)

end Requests

/-! ### The control iteration -/

/-- A tick sets nothing up and leaves the target speeds alone. -/
theorem setup_controlChassisTick (chassis : ControlChassis F) (run : Bool) (nowMs : UInt32)
    (encoder : BspEncoder) (motor : BspMotor) :
    SameSetup (controlChassisTick chassis run nowMs encoder motor).1 chassis ∧
      (controlChassisTick chassis run nowMs encoder motor).1.targetSpeedLeft =
        chassis.targetSpeedLeft ∧
      (controlChassisTick chassis run nowMs encoder motor).1.targetSpeedRight =
        chassis.targetSpeedRight := by
  have hmeasured : SameSetup (measureSpeeds chassis encoder).1 chassis :=
    ⟨rfl, sameTuning_pidUpdate .., sameTuning_pidUpdate .., rfl, rfl⟩
  rw [controlChassisTick]
  dsimp only
  split_ifs
  · exact ⟨hmeasured, rfl, rfl⟩
  · exact ⟨⟨hmeasured.config, hmeasured.pidLeft, hmeasured.pidRight, rfl, rfl⟩, rfl, rfl⟩
  · exact ⟨hmeasured, rfl, rfl⟩
  · exact ⟨hmeasured, rfl, rfl⟩

section Control

variable (nowMs : UInt32) (fw : Firmware F)

/-- What the line tracker returns when a control iteration asks it. -/
def track : F × PID F × DevLineSensor F :=
  controlLineTrackerUpdate fw.ctx.linePid fw.lineSensor (appStateTick nowMs (fw.setTick nowMs)).board

/-- The target of the left wheel on a straight line. -/
def leftBase : F := appBaseSpeedPulse * appLeftPulsesPerCm / appRightPulsesPerCm

/-- The steering after a control iteration. -/
structure Steering (F : Type*) where
  linePid : PID F
  lineSensor : DevLineSensor F
  lineTurn : F
  targetLeft : F
  targetRight : F

def steering (fw : Firmware F) : Steering F where
  linePid := fw.ctx.linePid
  lineSensor := fw.lineSensor
  lineTurn := fw.ctx.lineTurn
  targetLeft := fw.ctx.chassis.targetSpeedLeft
  targetRight := fw.ctx.chassis.targetSpeedRight

theorem steering_appMissionTick :
    steering (appMissionTick nowMs fw) =
      if fw.ctx.state = .run then
        let (turn, linePid, lineSensor) :=
          controlLineTrackerUpdate fw.ctx.linePid fw.lineSensor fw.board
        let lineTurn := clampf turn (-appLineTurnLimit) appLineTurnLimit
        { linePid, lineSensor, lineTurn
          targetLeft := leftBase - lineTurn
          targetRight := appBaseSpeedPulse + lineTurn }
      else
        { linePid := fw.ctx.linePid, lineSensor := fw.lineSensor
          lineTurn := 0.0, targetLeft := 0.0, targetRight := 0.0 } := by
  rw [appMissionTick]
  split_ifs <;> rfl

/-- The target speed that a control iteration in RUN sets for a wheel. -/
def targetSpeed : Wheel → F
  | .left => leftBase - clampf (track nowMs fw).1 (-appLineTurnLimit) appLineTurnLimit
  | .right => appBaseSpeedPulse + clampf (track nowMs fw).1 (-appLineTurnLimit) appLineTurnLimit

/-- The steering of a control iteration, which the chassis tick does not touch. -/
theorem steering_controlTask_eq_entered :
    steering (controlTask nowMs fw) = steering (entered nowMs fw) := by
  obtain ⟨-, hleft, hright⟩ := setup_controlChassisTick (entered nowMs fw).ctx.chassis
    ((entered nowMs fw).ctx.state = .run) nowMs (entered nowMs fw).encoder (entered nowMs fw).motor
  exact congrArg₂
    (fun l r => { steering (entered nowMs fw) with targetLeft := l, targetRight := r }) hleft hright

theorem steering_controlTask :
    steering (controlTask nowMs fw) =
      if nextState fw = .run then
        let lineTurn := clampf (track nowMs fw).1 (-appLineTurnLimit) appLineTurnLimit
        { linePid := (track nowMs fw).2.1
          lineSensor := (track nowMs fw).2.2
          lineTurn
          targetLeft := leftBase - lineTurn
          targetRight := appBaseSpeedPulse + lineTurn }
      else
        { linePid := fw.ctx.linePid, lineSensor := fw.lineSensor
          lineTurn := 0.0, targetLeft := 0.0, targetRight := 0.0 } := by
  obtain ⟨hpid, hsensor, -, -⟩ := keepsSteering_appStateTick nowMs (fw.setTick nowMs)
  rw [steering_controlTask_eq_entered, entered, steering_appMissionTick, hpid, hsensor,
    (appStateTick_spec nowMs (fw.setTick nowMs)).1]
  rfl

/-- The line PID and the line sensor move in RUN only, and as the tracker moves them. -/
theorem linePid_controlTask :
    (controlTask nowMs fw).ctx.linePid =
      if nextState fw = .run then (track nowMs fw).2.1 else fw.ctx.linePid := by
  refine (congrArg Steering.linePid (steering_controlTask nowMs fw)).trans ?_
  split_ifs <;> rfl

theorem lineSensor_controlTask :
    (controlTask nowMs fw).lineSensor =
      if nextState fw = .run then (track nowMs fw).2.2 else fw.lineSensor := by
  refine (congrArg Steering.lineSensor (steering_controlTask nowMs fw)).trans ?_
  split_ifs <;> rfl

theorem setup_entered : SameSetup (entered nowMs fw).ctx.chassis fw.ctx.chassis := by
  have htaken := (keepsSteering_appStateTick nowMs (fw.setTick nowMs)).setup
  have hmission : SameSetup (entered nowMs fw).ctx.chassis
      (appStateTick nowMs (fw.setTick nowMs)).ctx.chassis := by
    rw [entered, appMissionTick]
    split_ifs
    · exact ⟨rfl, ⟨rfl, rfl, rfl, rfl, rfl⟩, ⟨rfl, rfl, rfl, rfl, rfl⟩, rfl, rfl⟩
    · exact ⟨rfl, ⟨rfl, rfl, rfl, rfl, rfl⟩, ⟨rfl, rfl, rfl, rfl, rfl⟩, rfl, rfl⟩
  exact hmission.trans htaken

theorem setup_controlTask : SameSetup (controlTask nowMs fw).ctx.chassis fw.ctx.chassis :=
  (setup_controlChassisTick ..).1.trans (setup_entered nowMs fw)

end Control

/-- No other step touches steering, setup or the application state. -/
theorem keeps_step (fw : Firmware F) {e : Event F} (h : ∀ nowMs, e ≠ .control nowMs) :
    steering (step fw e) = steering fw ∧ SameSetup (step fw e).ctx.chassis fw.ctx.chassis ∧
      (step fw e).ctx.state = fw.ctx.state := by
  cases e with
  | control nowMs => exact absurd rfl (h nowMs)
  | _ => exact ⟨rfl, SameSetup.refl _, rfl⟩

/-- The setup is never touched. -/
theorem setup_step (fw : Firmware F) (e : Event F) :
    SameSetup (step fw e).ctx.chassis fw.ctx.chassis := by
  by_cases hcontrol : ∃ nowMs, e = .control nowMs
  · obtain ⟨nowMs, rfl⟩ := hcontrol
    exact setup_controlTask nowMs fw
  · exact (keeps_step fw (not_exists.mp hcontrol)).2.1

end NuedcFirmware.App
