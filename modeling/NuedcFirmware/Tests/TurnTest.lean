import NuedcFirmware.Modules.ImuService

/-!
The control task of the turn test, `turn_test.c`: it turns the car on the spot by a given
angle under control of the yaw that the IMU service publishes.

The local variables that survive an iteration are the fields of `ControlTask`. What an
iteration decides and what it tells the motors are separated: a decision gives the motor
calls in the order in which they are made (`MotorCall`), and `runCalls` makes them. The
tasks that raise faults have a higher priority, so that a fault can come between any two
calls. The edge counts that the calibration build shows are left out.
-/

namespace NuedcFirmware.Tests

open NuedcFirmware.Lib NuedcFirmware.Platform NuedcFirmware.Modules NuedcFirmware.System

inductive ButtonCommand
  | none
  | cw
  | ccw
  | sequence
  deriving DecidableEq, Repr

inductive TurnState
  | waitImu
  | idle
  | cw
  | ccw
  | sequenceCw
  | sequencePause
  | sequenceCcw
  | done
  | fault
  deriving DecidableEq, Repr

inductive TurnPhase
  | coarse
  | brake
  | finePulse
  deriving DecidableEq, Repr

/-- `TurnSnapshot`, what the display task shows. -/
structure TurnSnapshot (F : Type*) where
  state : TurnState
  yawDeg : F
  targetDeg : F
  errorDeg : F
  pwm : ℤ
  status : ℤ
  phase : TurnPhase
  fineAttempts : ℕ

/-- The constants that the two builds of the file set differently. -/
structure TurnBuild (F : Type*) where
  turnAngleDeg : F
  turnPrecisionDeg : F
  turnFineMaxAttempts : ℕ
  turnTimeoutMs : UInt32

/-- The local variables of `control_task` that live from one iteration to the next. -/
structure ControlTask (F : Type*) where
  candidate : ButtonCommand
  stable : ButtonCommand
  stableSamples : ℕ
  state : TurnState
  phase : TurnPhase
  targetDeg : F
  turnOriginDeg : F
  expectedDirection : ℤ
  settleSamples : ℕ
  phaseStartedMs : UInt32
  segmentStartedMs : UInt32
  faultStatus : ℤ
  finePwm : ℤ
  fineAttempts : ℕ
  fineDirection : ℤ
  fineStartYawDeg : F
  fineErrorBeforeDeg : F

/-- A call of the motor module. -/
inductive MotorCall
  | setSignedDuty (ch : ℕ) (duty : ℤ)
  | brake (ch : ℕ)
  deriving DecidableEq, Repr

/-! ### `vehicle_calibration.h` -/

def turnPwmMax : ℤ := 300
def turnPwmMin : ℤ := 220
def turnPwmApproachMin : ℤ := 160
def turnSettleSamples : ℕ := 15
def turnBrakeMinMs : UInt32 := 120
def turnFinePwmInitial : ℤ := 180
def turnFinePwmMin : ℤ := 140
def turnFinePwmMax : ℤ := 260
def turnFinePwmStep : ℤ := 20
def turnFinePulseMs : UInt32 := 20
def turnDirectionCheckMs : UInt32 := 600
def sequencePauseMs : UInt32 := 700
def debounceSamples : ℕ := 3

/-! ### Motor calls -/

def stopMotors : List MotorCall := [.setSignedDuty 0 0, .setSignedDuty 1 0]

def brakeMotors : List MotorCall := [.brake 0, .brake 1]

/-! ### Buttons -/

/-- `read_buttons`, on what the three buttons read: one alone is pressed. -/
def readButtons (cw ccw sequence : Bool) : ButtonCommand :=
  if cw.toNat + ccw.toNat + sequence.toNat ≠ 1 then .none
  else if cw then .cw
  else if ccw then .ccw
  else .sequence

/-- `state_is_turning`. -/
def TurnState.isTurning (state : TurnState) : Bool :=
  state = .cw || state = .ccw || state = .sequenceCw || state = .sequenceCcw

section Float

variable {F : Type*} [CFloat F]

def turnKp : F := 4.0
def turnApproachWindowDeg : F := 20.0
def turnFineEntryDeg : F := 3.0
def turnSettleRateDps : F := 1.0
def turnFineProgressMinDeg : F := 0.05
def turnDirectionProgressDeg : F := 2.0

def turnTest : TurnBuild F := ⟨90.0, 0.2, 20, 12000⟩

/-- The build with `NUEDC_ENCODER_CALIBRATION`. -/
def encoderCalibration : TurnBuild F := ⟨360.0, 0.5, 12, 20000⟩

def absFloat (value : F) : F := if value < 0.0 then -value else value

def turnPwm (errorDeg : F) : ℤ :=
  let errorMagnitude := absFloat errorDeg
  let magnitude : F :=
    if errorMagnitude < turnApproachWindowDeg then
      let span : F := ((turnPwmMin - turnPwmApproachMin : ℤ) : F)
      (turnPwmApproachMin : F) + span * errorMagnitude / turnApproachWindowDeg
    else errorMagnitude * turnKp
  let magnitude :=
    if errorMagnitude ≥ turnApproachWindowDeg ∧ magnitude < (turnPwmMin : F) then (turnPwmMin : F)
    else magnitude
  let magnitude := if magnitude > (turnPwmMax : F) then (turnPwmMax : F) else magnitude
  toInt16 (truncate magnitude)

def clampFinePwm (pwm : ℤ) : ℤ :=
  if pwm < turnFinePwmMin then turnFinePwmMin
  else if pwm > turnFinePwmMax then turnFinePwmMax
  else pwm

/-- `apply_turn`: positive yaw is counterclockwise. -/
def applyTurn (errorDeg : F) (pwm : ℤ) : List MotorCall :=
  if errorDeg > 0.0 then [.setSignedDuty 0 (toInt16 (-pwm)), .setSignedDuty 1 pwm]
  else [.setSignedDuty 0 pwm, .setSignedDuty 1 (toInt16 (-pwm))]

/-! ### What an iteration decides -/

/-- The initial values of the local variables. -/
def ControlTask.initial : ControlTask F where
  candidate := .none
  stable := .none
  stableSamples := debounceSamples
  state := .waitImu
  phase := .coarse
  targetDeg := 0.0
  turnOriginDeg := 0.0
  expectedDirection := 0
  settleSamples := 0
  phaseStartedMs := 0
  segmentStartedMs := 0
  faultStatus := 0
  finePwm := turnFinePwmInitial
  fineAttempts := 0
  fineDirection := 0
  fineStartYawDeg := 0.0
  fineErrorBeforeDeg := 0.0

/-- The debouncing, and the command that has been pressed with this sample. -/
def debounce (sample : ButtonCommand) (task : ControlTask F) : ButtonCommand × ControlTask F :=
  let task :=
    if sample ≠ task.candidate then { task with candidate := sample, stableSamples := 1 }
    else if task.stableSamples < debounceSamples then
      { task with stableSamples := task.stableSamples + 1 }
    else task
  if task.stableSamples ≥ debounceSamples ∧ task.stable ≠ task.candidate then
    (task.candidate, { task with stable := task.candidate })
  else (.none, task)

/-- The tests for faults and for the IMU. -/
def checkFaults (faultActive : Bool) (imu : ImuSnapshot F) (task : ControlTask F) :
    ControlTask F :=
  if faultActive then
    { task with
      state := .fault
      faultStatus := if task.faultStatus = 0 then -5 else task.faultStatus }
  else if imu.state = .fault ∨ imu.status ≠ 0 then
    { task with state := .fault, faultStatus := if imu.status ≠ 0 then imu.status else -1 }
  else if imu.state ≠ .ready ∨ imu.ready = false then
    if task.state.isTurning then { task with state := .fault, faultStatus := -4 }
    else if task.state ≠ .fault then { task with state := .waitImu }
    else task
  else if task.state = .waitImu then { task with state := .idle }
  else task

/-- The start of a turn by a button. -/
def startTurn (build : TurnBuild F) (now : UInt32) (imu : ImuSnapshot F) (pressed : ButtonCommand)
    (task : ControlTask F) : ControlTask F :=
  if (task.state = .idle ∨ task.state = .done) ∧ pressed ≠ .none ∧ imu.state = .ready ∧
      imu.ready = true ∧ imu.status = 0 then
    let task :=
      { task with
        turnOriginDeg := imu.yawDeg
        settleSamples := 0
        phaseStartedMs := now
        segmentStartedMs := now
        phase := .coarse
        finePwm := turnFinePwmInitial
        fineAttempts := 0 }
    match pressed with
    | .cw =>
        { task with
          state := .cw
          expectedDirection := -1
          targetDeg := imu.yawDeg - build.turnAngleDeg }
    | .ccw =>
        { task with
          state := .ccw
          expectedDirection := 1
          targetDeg := imu.yawDeg + build.turnAngleDeg }
    | _ =>
        { task with
          state := .sequenceCw
          expectedDirection := -1
          targetDeg := imu.yawDeg - build.turnAngleDeg }
  else task

/-- What the motor part of an iteration leaves: the variables, the error and the duty that
are published, and the motor calls. -/
structure Decision (F : Type*) where
  task : ControlTask F
  errorDeg : F
  pwm : ℤ
  calls : List MotorCall

/-- The brake phase begins. -/
def beginBrake (now : UInt32) (errorDeg : F) (task : ControlTask F) : Decision F :=
  { task := { task with phase := .brake, phaseStartedMs := now, settleSamples := 0 }
    errorDeg, pwm := 0, calls := brakeMotors }

def coarsePhase (now : UInt32) (errorDeg : F) (task : ControlTask F) : Decision F :=
  if absFloat errorDeg ≤ turnFineEntryDeg ∨ errorDeg * (task.expectedDirection : F) ≤ 0.0 then
    beginBrake now errorDeg task
  else
    let pwm := turnPwm errorDeg
    { task, errorDeg, pwm, calls := applyTurn errorDeg pwm }

def finePulsePhase (now : UInt32) (errorDeg : F) (task : ControlTask F) : Decision F :=
  let crossedTarget := errorDeg * (task.fineDirection : F) ≤ 0.0
  if crossedTarget ∨ now - task.phaseStartedMs ≥ turnFinePulseMs then beginBrake now errorDeg task
  else
    { task, errorDeg, pwm := task.finePwm,
      calls := applyTurn (task.fineDirection : F) task.finePwm }

/-- The duty of the next fine pulse, by what the last one has done. -/
def adaptFinePwm (yawDeg errorMagnitude : F) (task : ControlTask F) : ℤ :=
  if task.fineAttempts > 0 then
    let fineProgress := (yawDeg - task.fineStartYawDeg) * (task.fineDirection : F)
    if fineProgress < turnFineProgressMinDeg then
      clampFinePwm (toInt16 (task.finePwm + turnFinePwmStep))
    else if errorMagnitude ≥ task.fineErrorBeforeDeg then
      clampFinePwm (toInt16 (task.finePwm - turnFinePwmStep))
    else task.finePwm
  else task.finePwm

/-- The brake phase, in which the car has come to rest: the turn is over, or given up, or
another fine pulse follows. -/
def settled (build : TurnBuild F) (now : UInt32) (imu : ImuSnapshot F) (errorDeg : F)
    (task : ControlTask F) : Decision F :=
  let errorMagnitude := absFloat errorDeg
  let task := { task with settleSamples := 0 }
  if errorMagnitude ≤ build.turnPrecisionDeg then
    { task :=
        if task.state = .sequenceCw then
          { task with state := .sequencePause, phaseStartedMs := now }
        else { task with state := .done }
      errorDeg, pwm := 0, calls := brakeMotors ++ stopMotors }
  else if task.fineAttempts ≥ build.turnFineMaxAttempts then
    { task := { task with state := .fault, faultStatus := -6 }
      errorDeg, pwm := 0, calls := brakeMotors }
  else
    let finePwm := adaptFinePwm imu.yawDeg errorMagnitude task
    let fineDirection : ℤ := if errorDeg ≥ 0.0 then 1 else -1
    { task :=
        { task with
          finePwm
          fineDirection
          fineStartYawDeg := imu.yawDeg
          fineErrorBeforeDeg := errorMagnitude
          fineAttempts := task.fineAttempts + 1
          phase := .finePulse
          phaseStartedMs := now }
      errorDeg, pwm := finePwm
      calls := brakeMotors ++ applyTurn (fineDirection : F) finePwm }

def brakePhase (build : TurnBuild F) (now : UInt32) (imu : ImuSnapshot F) (errorDeg : F)
    (task : ControlTask F) : Decision F :=
  let gyroZDps := imu.gyroDps.2.2
  let task :=
    if now - task.phaseStartedMs ≥ turnBrakeMinMs ∧ absFloat gyroZDps ≤ turnSettleRateDps then
      { task with settleSamples := task.settleSamples + 1 }
    else { task with settleSamples := 0 }
  if task.settleSamples ≥ turnSettleSamples then settled build now imu errorDeg task
  else { task, errorDeg, pwm := 0, calls := brakeMotors }

/-- An iteration in one of the turning states. -/
def turn (build : TurnBuild F) (now : UInt32) (imu : ImuSnapshot F) (task : ControlTask F) :
    Decision F :=
  let progress := (imu.yawDeg - task.turnOriginDeg) * (task.expectedDirection : F)
  let errorDeg := task.targetDeg - imu.yawDeg
  if now - task.segmentStartedMs > build.turnTimeoutMs then
    { task := { task with state := .fault, faultStatus := -2 }, errorDeg, pwm := 0, calls := [] }
  else if task.phase = .coarse ∧ now - task.segmentStartedMs ≥ turnDirectionCheckMs ∧
      progress < turnDirectionProgressDeg then
    { task := { task with state := .fault, faultStatus := -3 }, errorDeg, pwm := 0, calls := [] }
  else
    match task.phase with
    | .coarse => coarsePhase now errorDeg task
    | .finePulse => finePulsePhase now errorDeg task
    | .brake => brakePhase build now imu errorDeg task

/-- The pause of a sequence, after which its second turn begins. -/
def sequencePause (build : TurnBuild F) (now : UInt32) (imu : ImuSnapshot F)
    (task : ControlTask F) : Decision F :=
  { task :=
      if now - task.phaseStartedMs ≥ sequencePauseMs then
        { task with
          state := .sequenceCcw
          turnOriginDeg := imu.yawDeg
          expectedDirection := 1
          targetDeg := task.targetDeg + build.turnAngleDeg
          settleSamples := 0
          phase := .coarse
          finePwm := turnFinePwmInitial
          fineAttempts := 0
          phaseStartedMs := now
          segmentStartedMs := now }
      else task
    errorDeg := task.targetDeg - imu.yawDeg, pwm := 0, calls := stopMotors }

/-- The motor part of an iteration, with the stop that a fault adds at its end. -/
def drive (build : TurnBuild F) (now : UInt32) (imu : ImuSnapshot F) (task : ControlTask F) :
    Decision F :=
  let decision : Decision F :=
    if task.state.isTurning then turn build now imu task
    else if task.state = .sequencePause then sequencePause build now imu task
    else
      { task
        errorDeg :=
          if task.state = .done ∨ task.state = .fault then task.targetDeg - imu.yawDeg else 0.0
        pwm := 0, calls := stopMotors }
  if decision.task.state = .fault then { decision with calls := decision.calls ++ stopMotors }
  else decision

end Float

/-! ### The system -/

/-- A fault with its code and detail. -/
abbrev RaisedFault := SystemFaultCode × UInt32

/-- `System_Fault_Raise`, if a fault is raised. -/
def raiseIf (raised : Option RaisedFault) (s : FaultManager × BspMotor) : FaultManager × BspMotor :=
  match raised with
  | some (code, detail) => systemFaultRaise code detail s.1 s.2
  | none => s

def MotorCall.perform : MotorCall → BspMotor → BspMotor
  | .setSignedDuty ch duty => bspMotorSetSignedDuty ch duty
  | .brake ch => bspMotorBrake ch

/-- The calls are made one by one. Before the first, between two, and after the last a task
of higher priority can raise a fault. -/
def runCalls : (ℕ → Option RaisedFault) → List MotorCall → FaultManager × BspMotor →
    FaultManager × BspMotor
  | raised, [], s => raiseIf (raised 0) s
  | raised, call :: calls, s =>
      let (fault, motor) := raiseIf (raised 0) s
      runCalls (fun k => raised (k + 1)) calls (fault, call.perform motor)

/-- What an iteration reads: the time, the IMU snapshot and the buttons. And the faults that
are raised while it runs, by the number of motor calls that have been made. -/
structure TurnInput (F : Type*) where
  now : UInt32
  imu : ImuSnapshot F
  cw : Bool
  ccw : Bool
  sequence : Bool
  raised : ℕ → Option RaisedFault

/-- The static state of the program and the variables of the task. -/
structure TurnSystem (F : Type*) where
  task : ControlTask F
  supervisor : Supervisor
  motor : BspMotor
  snapshot : TurnSnapshot F

/-- A step: an iteration of `control_task`, or a fault raised between two of them. -/
inductive TurnEvent (F : Type*)
  | control (i : TurnInput F)
  | faultRaise (code : SystemFaultCode) (detail : UInt32)

section System

variable {F : Type*} [CFloat F]

/-- What an iteration decides. -/
def decision (build : TurnBuild F) (i : TurnInput F) (s : TurnSystem F) : Decision F :=
  let (pressed, task) := debounce (readButtons i.cw i.ccw i.sequence) s.task
  let task := checkFaults (systemFaultIsActive s.supervisor.fault) i.imu task
  let task := startTurn build i.now i.imu pressed task
  drive build i.now i.imu task

/-- One iteration of `control_task`. The published status is the fault status, which every
branch that sets one copies. -/
def controlTask (build : TurnBuild F) (i : TurnInput F) (s : TurnSystem F) : TurnSystem F :=
  let d := decision build i s
  let board := { s.motor.board with gTickMs := i.now }
  let (fault, motor) := runCalls i.raised d.calls (s.supervisor.fault, { s.motor with board })
  let health := systemHealthBeat .control i.now (systemHealthBeat .fastIo i.now s.supervisor.health)
  { task := d.task
    supervisor := { s.supervisor with fault, health }
    motor := bspMotorSafetyTick i.now motor
    snapshot :=
      { state := d.task.state
        yawDeg := i.imu.yawDeg
        targetDeg := d.task.targetDeg
        errorDeg := d.errorDeg
        pwm := d.pwm
        status := d.task.faultStatus
        phase := d.task.phase
        fineAttempts := d.task.fineAttempts } }

def step (build : TurnBuild F) (s : TurnSystem F) : TurnEvent F → TurnSystem F
  | .control i => controlTask build i s
  | .faultRaise code detail =>
      let (fault, motor) := systemFaultRaise code detail s.supervisor.fault s.motor
      { s with supervisor := { s.supervisor with fault }, motor }

/-- What `main` leaves when it starts the scheduler. -/
def start (b : Board) : TurnSystem F where
  task := .initial
  supervisor := { fault := systemFaultInit, health := systemHealthInit 0, watchdogFeeds := 0 }
  motor := bspMotorInit b
  snapshot :=
    { state := .waitImu, yawDeg := 0.0, targetDeg := 0.0, errorDeg := 0.0, pwm := 0, status := 0
      phase := .coarse, fineAttempts := 0 }

end System

end NuedcFirmware.Tests
