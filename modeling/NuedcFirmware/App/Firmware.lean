import NuedcFirmware.Control.Chassis
import NuedcFirmware.Control.LineTracker
import NuedcFirmware.Modules.ImuService
import NuedcFirmware.Modules.Telemetry

/-!
The application: its shared context (`app_shared.c`), state machine
(`app_state.c`) and mission (`app_mission.c`), the periodic tasks of
`app_tasks.c`, and the initialisation of `app_main.c`.

`Firmware` is the static state of the whole program with the board it runs on; a
task is given by one iteration of its loop. The IMU task appears by what the
others see of it: the snapshot it publishes and its heartbeat.
-/

namespace NuedcFirmware.App

open NuedcFirmware.Lib NuedcFirmware.Platform NuedcFirmware.Common NuedcFirmware.Modules
open NuedcFirmware.Control NuedcFirmware.System

inductive AppState
  | idle
  | run
  | fault
  deriving DecidableEq, Repr

/-- The number of a state, which `state_id` shows to the telemetry. -/
def AppState.id : AppState → ℕ
  | .idle => 0
  | .run => 1
  | .fault => 2

structure AppContext (F : Type*) where
  state : AppState
  stateId : ℕ
  chassis : ControlChassis F
  linePid : PID F
  lineTurn : F
  pitchDeg : F
  rollDeg : F
  yawDeg : F
  gxDps : F
  gyDps : F
  gzDps : F
  axG : F
  ayG : F
  azG : F
  imuReady : Bool

/-- The static state of the program. The board is that of the motor module. -/
structure Firmware (F : Type*) where
  ctx : AppContext F
  telemetry : Telemetry
  motor : BspMotor
  encoder : BspEncoder
  lineSensor : DevLineSensor F
  supervisor : Supervisor
  imu : ImuService F

namespace Firmware

variable {F : Type*}

def board (fw : Firmware F) : Board := fw.motor.board

/-- `g_tick_ms = now`. -/
def setTick (fw : Firmware F) (nowMs : UInt32) : Firmware F :=
  { fw with motor := { fw.motor with board := { fw.motor.board with gTickMs := nowMs } } }

/-- `System_Health_Beat`. -/
def beat (fw : Firmware F) (task : HealthTaskId) (nowMs : UInt32) : Firmware F :=
  { fw with
    supervisor :=
      { fw.supervisor with health := systemHealthBeat task nowMs fw.supervisor.health } }

/-- `System_Fault_Raise`. -/
def raiseFault (fw : Firmware F) (code : SystemFaultCode) (detail : UInt32) : Firmware F :=
  let (fault, motor) := systemFaultRaise code detail fw.supervisor.fault fw.motor
  { fw with supervisor := { fw.supervisor with fault }, motor }

end Firmware

variable {F : Type*} [CMath F]

/-! ### `app_state.c` -/

/-- `App_State_Set`: any state but RUN stops the wheels. -/
def appStateSet (state : AppState) (fw : Firmware F) : Firmware F :=
  let fw := { fw with ctx := { fw.ctx with state, stateId := state.id } }
  if state ≠ .run then
    { fw with
      ctx := { fw.ctx with chassis := controlChassisSetTargetSpeeds fw.ctx.chassis 0.0 0.0 }
      motor := setDuties 0 0 fw.motor }
  else fw

/-- `Control_Chassis_ResetOdometry` to the origin. -/
def resetOdometry (fw : Firmware F) : Firmware F :=
  let (chassis, encoder) :=
    controlChassisResetOdometry fw.ctx.chassis ⟨0.0, 0.0, 0.0⟩ fw.encoder fw.board
  { fw with ctx := { fw.ctx with chassis }, encoder }

/-- The first branch of `App_State_Tick`. -/
def takeStopRequest (fw : Firmware F) : Firmware F :=
  let (stop, telemetry) := telemetryConsumeStopRequest fw.telemetry
  let fw := { fw with telemetry }
  if stop then appStateSet .idle fw else fw

/-- Its second branch: a start request is taken in any case, and obeyed when the
IMU is ready. -/
def takeStartRequest (fw : Firmware F) : Firmware F :=
  let (start, telemetry) := telemetryConsumeStartRequest fw.telemetry
  let fw := { fw with telemetry }
  if start ∧ fw.ctx.imuReady then appStateSet .run (resetOdometry fw) else fw

/-- Its third branch. -/
def takeDutyRequest (nowMs : UInt32) (fw : Firmware F) : Firmware F :=
  let (duty, telemetry) := telemetryConsumeDutyRequest fw.telemetry
  let fw := { fw with telemetry }
  match duty with
  | none => fw
  | some duty =>
      let fw := appStateSet .idle fw
      let chassis :=
        controlChassisSetDebugDuty fw.ctx.chassis duty.leftPwm duty.rightPwm nowMs duty.holdMs
      { fw with ctx := { fw.ctx with chassis } }

def appStateTick (nowMs : UInt32) (fw : Firmware F) : Firmware F :=
  takeDutyRequest nowMs (takeStartRequest (takeStopRequest fw))

/-! ### `app_mission.c` -/

def appLeftPulsesPerCm : F := 73.44
def appRightPulsesPerCm : F := 73.14
def appBaseSpeedPulse : F := 80.0
def appLineTurnLimit : F := 40.0

/-- `clampf_local`. -/
def clampf (x lo hi : F) : F := if x < lo then lo else if x > hi then hi else x

def appMissionTick (_nowMs : UInt32) (fw : Firmware F) : Firmware F :=
  if fw.ctx.state = .run then
    let base : F := appBaseSpeedPulse
    let leftBase := base * appLeftPulsesPerCm / appRightPulsesPerCm
    let (turn, linePid, lineSensor) :=
      controlLineTrackerUpdate fw.ctx.linePid fw.lineSensor fw.board
    let lineTurn := clampf turn (-appLineTurnLimit) appLineTurnLimit
    let chassis :=
      controlChassisSetTargetSpeeds fw.ctx.chassis (leftBase - lineTurn) (base + lineTurn)
    { fw with ctx := { fw.ctx with linePid, lineTurn, chassis }, lineSensor }
  else
    { fw with
      ctx :=
        { fw.ctx with
          lineTurn := 0.0
          chassis := controlChassisSetTargetSpeeds fw.ctx.chassis 0.0 0.0 } }

/-! ### `app_tasks.c` -/

/-- `copy_imu_snapshot`. -/
def copyImuSnapshot (fw : Firmware F) : Firmware F :=
  let snapshot := fw.imu.snapshot
  { fw with
    ctx :=
      { fw.ctx with
        pitchDeg := snapshot.pitchDeg
        rollDeg := snapshot.rollDeg
        yawDeg := snapshot.yawDeg
        gxDps := snapshot.gyroDps.1
        gyDps := snapshot.gyroDps.2.1
        gzDps := snapshot.gyroDps.2.2
        axG := snapshot.accelG.1
        ayG := snapshot.accelG.2.1
        azG := snapshot.accelG.2.2
        imuReady := snapshot.ready && snapshot.state = .ready && snapshot.status = 0 } }

/-- One iteration of `fast_task`. -/
def fastTask (nowMs : UInt32) (fw : Firmware F) : Firmware F :=
  let fw := fw.setTick nowMs
  let fw := { fw with encoder := controlChassisPollFastInputs fw.encoder fw.board }
  let fw := { fw with motor := bspMotorSafetyTick nowMs fw.motor }
  (copyImuSnapshot fw).beat .fastIo nowMs

/-- `Control_Chassis_Tick` on the chassis of the application. -/
def chassisTick (nowMs : UInt32) (fw : Firmware F) : Firmware F :=
  let (chassis, encoder, motor) :=
    controlChassisTick fw.ctx.chassis (fw.ctx.state = .run) nowMs fw.encoder fw.motor
  { fw with ctx := { fw.ctx with chassis }, encoder, motor }

/-- One iteration of `control_task`. -/
def controlTask (nowMs : UInt32) (fw : Firmware F) : Firmware F :=
  fw.setTick nowMs
    |> appStateTick nowMs
    |> appMissionTick nowMs
    |> chassisTick nowMs
    |>.beat .control nowMs

/-- One iteration of `telemetry_task`. -/
def telemetryTask (nowMs : UInt32) (fw : Firmware F) : Firmware F :=
  let fw := fw.setTick nowMs
  let (telemetry, _) := telemetryTick nowMs fw.telemetry
  let (request, telemetry) := telemetryConsumeImuCalRequest telemetry
  let imu :=
    match request with
    | .start => imuRequestYawCalibration fw.imu
    | .cancel => imuCancelYawCalibration fw.imu
    | .none => fw.imu
  { fw with telemetry, imu }.beat .telemetry nowMs

/-- One iteration of `health_task`. -/
def healthTaskIteration (nowMs : UInt32) (fw : Firmware F) : Firmware F :=
  let (supervisor, motor) := healthTask nowMs fw.supervisor fw.motor
  { fw with supervisor, motor }

/-! ### `app_main.c` -/

/-- `k_chassis_config`. -/
def kChassisConfig : ControlChassisConfig F where
  leftPulsesPerCm := appLeftPulsesPerCm
  rightPulsesPerCm := appRightPulsesPerCm
  wheelBaseCm := 13.5
  openLoopCmPerPwmMs := 0.00022
  speedOutLimit := 1000.0
  forwardMinPulse := 0.03

/-- `App_Init` on a board out of reset, up to the creation of the tasks. -/
def appInit (b : Board) : Firmware F :=
  let motor := bspMotorInit b
  let motor := { motor with board := group1Clear encoderPin motor.board }
  appStateSet .idle
    { ctx :=
        { state := .idle
          stateId := 0
          chassis := controlChassisInit kChassisConfig 18.0 0.0 0.0
          linePid := pidInit 0.18 0.0 0.02 (-appLineTurnLimit) appLineTurnLimit
          lineTurn := 0.0
          pitchDeg := 0.0
          rollDeg := 0.0
          yawDeg := 0.0
          gxDps := 0.0
          gyDps := 0.0
          gzDps := 0.0
          axG := 0.0
          ayG := 0.0
          azG := 0.0
          imuReady := false }
      telemetry := Telemetry.initial
      motor
      encoder := bspEncoderInit motor.board
      lineSensor := controlLineTrackerInit bspAdcInit
      supervisor := ⟨systemFaultInit, systemHealthInit 0, 0⟩
      imu := imuServiceInit }

/-! ### The system -/

/-- The steps of the running system: a byte is received, pins change or the
encoder interrupt runs, the IMU task works on its own state or beats, a fault is
raised, or a task runs through its loop once. -/
inductive Event (F : Type*)
  | rxByte (byte : UInt8)
  | inputs (level edge : Pin → Bool)
  | encoderIrq
  | imuService (imu : ImuService F)
  | imuBeat (nowMs : UInt32)
  | faultRaise (code : SystemFaultCode) (detail : UInt32)
  | fast (nowMs : UInt32)
  | control (nowMs : UInt32)
  | telemetry (nowMs : UInt32)
  | health (nowMs : UInt32)

def step (fw : Firmware F) : Event F → Firmware F
  | .rxByte byte => { fw with telemetry := (telemetryOnRxByte byte fw.telemetry).1 }
  | .inputs level edge =>
      { fw with
        motor := { fw.motor with board := { fw.motor.board with input := level, edgeStatus := edge } } }
  | .encoderIrq =>
      let (encoder, board) := group1IrqHandler fw.encoder fw.board
      { fw with encoder, motor := { fw.motor with board } }
  | .imuService imu => { fw with imu }
  | .imuBeat nowMs => fw.beat .imu nowMs
  | .faultRaise code detail => fw.raiseFault code detail
  | .fast nowMs => fastTask nowMs fw
  | .control nowMs => controlTask nowMs fw
  | .telemetry nowMs => telemetryTask nowMs fw
  | .health nowMs => healthTaskIteration nowMs fw

end NuedcFirmware.App
