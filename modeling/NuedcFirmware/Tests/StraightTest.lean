import NuedcFirmware.Modules.EncoderIrq
import NuedcFirmware.Modules.LineSensor
import NuedcFirmware.Tests.TurnTest

/-!
The control task of the straight-line test, `straight_cal_test.c`: it drives the car 100 cm
ahead by the encoder counts of its two wheels.

The local variables that survive an iteration are the fields of `StraightTask`. As in the
turn test an iteration first decides and then makes its motor calls, one by one. Here
everything of a higher priority can come between two of them (`Interruption`): the encoder
interrupt, the fast task with its safety tick, the health task, a fault.
-/

namespace NuedcFirmware.Tests.Straight

open NuedcFirmware.Lib NuedcFirmware.Platform NuedcFirmware.Modules NuedcFirmware.System

inductive StraightState
  | waitImu
  | ready
  | running
  | done
  | fault
  deriving DecidableEq, Repr

/-- `StraightSnapshot`, what the display task shows. -/
structure StraightSnapshot (F : Type*) where
  state : StraightState
  leftTotal : ℤ
  rightTotal : ℤ
  yawDeg : F
  yawReferenceDeg : F
  yawErrorDeg : F
  leftPwm : ℤ
  rightPwm : ℤ
  elapsedMs : UInt32
  status : Int32
  centerLevel : Bool
  startBlackLevel : Bool
  leftStartLine : Bool

/-- The static variables of `read_button_press_event`. -/
structure ButtonReader where
  candidate : Bool
  stable : Bool
  stableSamples : ℕ

/-- The variables of `control_task` that live from one iteration to the next, with those of
the button. -/
structure StraightTask (F : Type*) where
  button : ButtonReader
  state : StraightState
  yawReference : F
  runStartedMs : UInt32
  brakeStartedMs : UInt32
  faultStatus : Int32
  startBlackLevel : Bool
  leftStartLine : Bool
  lineStableSamples : ℕ

/-! ### `vehicle_calibration.h` and the constants of the file -/

def straightDistanceCm : ℤ := 100
def basePwm : ℤ := 300
def startPwm : ℤ := 300
def leftPwmOffset : ℤ := 300 - basePwm
def rightPwmOffset : ℤ := 300 - basePwm
def decelWindowPulses : UInt32 := 900
def minClosedLoopPwm : ℤ := 220
def rampTimeMs : UInt32 := 500
def encoderSyncDeadband : ℤ := 3
def encoderSyncMaxPwm : ℤ := 15
def runTimeoutMs : UInt32 := 15000
def brakeHoldMs : UInt32 := 300
def finishArmMs : UInt32 := 500
def lineStableLimit : ℕ := 5
def lineCenterIndex : ℕ := 3

/-! ### The button -/

def ButtonReader.initial : ButtonReader := ⟨false, false, debounceSamples⟩

/-- `read_button_press_event`, on what the button reads. -/
def readButtonPressEvent (sample : Bool) (button : ButtonReader) : Bool × ButtonReader :=
  let button :=
    if sample ≠ button.candidate then { button with candidate := sample, stableSamples := 1 }
    else if button.stableSamples < debounceSamples then
      { button with stableSamples := button.stableSamples + 1 }
    else button
  if button.stableSamples ≥ debounceSamples ∧ button.stable ≠ button.candidate then
    (button.candidate, { button with stable := button.candidate })
  else (false, button)

section Float

variable {F : Type*} [CFloat F]

def leftPulsesPerCm : F := 73.44
def rightPulsesPerCm : F := 73.14
def encoderSyncKp : F := 0.08

/-- The conversion of an unsigned count to `float`. -/
def ofCount (count : UInt32) : F := ((count.toNat : ℤ) : F)

/-- A target, rounded to whole pulses. -/
def targetPulses (pulsesPerCm : F) : UInt32 :=
  UInt32.ofInt (truncate (pulsesPerCm * (straightDistanceCm : F) + 0.5))

variable (F) in
/-- `LEFT_ENCODER_TARGET_PULSES`. -/
def leftTargetPulses : UInt32 := targetPulses (leftPulsesPerCm : F)

variable (F) in
/-- `RIGHT_ENCODER_TARGET_PULSES`. -/
def rightTargetPulses : UInt32 := targetPulses (rightPulsesPerCm : F)

/-- `(uint32_t)abs_i64(total)`. -/
def pulseCount (total : ℤ) : UInt32 := UInt32.ofInt |total|

variable (F) in
def wheelPwmFromCount (count target elapsedMs : UInt32) (pwmOffset : ℤ) : ℤ :=
  if count ≥ target then 0
  else
    let remaining := target - count
    let (base, trimScale) : F × F :=
      if remaining < decelWindowPulses then
        ((minClosedLoopPwm : F) +
            ((basePwm - minClosedLoopPwm : ℤ) : F) * ofCount remaining / ofCount decelWindowPulses,
          1.0)
      else if elapsedMs < rampTimeMs then
        ((startPwm : F) +
            ((basePwm - startPwm : ℤ) : F) * ofCount elapsedMs / ofCount rampTimeMs,
          ofCount elapsedMs / ofCount rampTimeMs)
      else ((basePwm : F), 1.0)
    toInt16 (truncate (base + (pwmOffset : F) * trimScale))

variable (F) in
/-- The left count that goes with a right count, rounded. The products fit in 64 bits. -/
def desiredLeftCount (rightCount : UInt32) : ℤ :=
  toInt32 ((rightCount.toNat * (leftTargetPulses F).toNat + (rightTargetPulses F).toNat / 2) /
    (rightTargetPulses F).toNat : ℕ)

variable (F) in
def encoderSyncAdjust (leftCount rightCount elapsedMs : UInt32) : ℤ :=
  let error := toInt32 (desiredLeftCount F rightCount - toInt32 leftCount.toNat)
  if error ≥ -encoderSyncDeadband ∧ error ≤ encoderSyncDeadband then 0
  else
    let rampScale : F :=
      if elapsedMs < rampTimeMs then ofCount elapsedMs / ofCount rampTimeMs else 1.0
    let adjust := toInt16 (truncate ((error : F) * encoderSyncKp * rampScale))
    if adjust > encoderSyncMaxPwm then encoderSyncMaxPwm
    else if adjust < -encoderSyncMaxPwm then -encoderSyncMaxPwm
    else adjust

/-! ### What an iteration decides -/

/-- The initial values of the local variables. -/
def StraightTask.initial : StraightTask F where
  button := .initial
  state := .ready
  yawReference := 0.0
  runStartedMs := 0
  brakeStartedMs := 0
  faultStatus := 0
  startBlackLevel := false
  leftStartLine := false
  lineStableSamples := 0

/-- What an iteration reads before it looks at the encoders. -/
structure Reading (F : Type*) where
  now : UInt32
  pressed : Bool
  yawDeg : F
  lineRaw : List ℕ
  faultActive : Bool

def Reading.level (r : Reading F) (i : ℕ) : Bool := r.lineRaw.getD i 0 ≠ 0

def Reading.centerLevel (r : Reading F) : Bool := r.level lineCenterIndex

/-- A channel shows the level that the start line had. -/
def Reading.lineDetected (r : Reading F) (startBlackLevel : Bool) : Bool :=
  (List.range bspAdcCcdCount).any fun i => r.level i = startBlackLevel

def checkFault (r : Reading F) (task : StraightTask F) : StraightTask F :=
  if r.faultActive then
    { task with
      state := .fault
      faultStatus := if task.faultStatus = 0 then -5 else task.faultStatus }
  else task

/-- The button starts a run. -/
def startsRun (r : Reading F) (task : StraightTask F) : Bool :=
  r.pressed && (task.state = .ready || task.state = .done)

/-- The button ends a run. -/
def endsRun (r : Reading F) (task : StraightTask F) : Bool :=
  r.pressed && task.state = .running

def pressButton (r : Reading F) (task : StraightTask F) : StraightTask F :=
  if startsRun r task then
    { task with
      yawReference := r.yawDeg
      runStartedMs := r.now
      faultStatus := 0
      startBlackLevel := r.centerLevel
      leftStartLine := false
      lineStableSamples := 0
      state := .running }
  else if endsRun r task then { task with brakeStartedMs := r.now, state := .done }
  else task

/-- The line tests of a run: first the start line is left, then line B is looked for. -/
def watchLine (r : Reading F) (task : StraightTask F) : StraightTask F :=
  if !task.leftStartLine then
    if r.centerLevel ≠ task.startBlackLevel then
      if task.lineStableSamples + 1 ≥ lineStableLimit then
        { task with leftStartLine := true, lineStableSamples := 0 }
      else { task with lineStableSamples := task.lineStableSamples + 1 }
    else { task with lineStableSamples := 0 }
  else if r.now - task.runStartedMs ≥ finishArmMs ∧ task.faultStatus &&& 2 = 0 then
    if r.lineDetected task.startBlackLevel then
      if task.lineStableSamples + 1 ≥ lineStableLimit then
        { task with faultStatus := task.faultStatus ||| 2, lineStableSamples := 0 }
      else { task with lineStableSamples := task.lineStableSamples + 1 }
    else { task with lineStableSamples := 0 }
  else task

/-- The state machine before the motors: faults, the button, the line. -/
def updateState (r : Reading F) (task : StraightTask F) : StraightTask F :=
  let task := pressButton r (checkFault r task)
  if task.state = .running then watchLine r task else task

/-- What the motor part of an iteration leaves: the variables, what is published, and the
motor calls. -/
structure Decision (F : Type*) where
  task : StraightTask F
  yawError : F
  leftPwm : ℤ
  rightPwm : ℤ
  elapsedMs : UInt32
  calls : List MotorCall

/-- The command for one wheel. -/
def wheelCall (ch : ℕ) (pwm : ℤ) : MotorCall :=
  if pwm = 0 then .brake ch else .setSignedDuty ch pwm

variable (F) in
/-- The duties by the counts, with the correction while both wheels run. -/
def wheelDuties (leftCount rightCount elapsedMs : UInt32) : ℤ × ℤ :=
  let leftPwm := wheelPwmFromCount F leftCount (leftTargetPulses F) elapsedMs leftPwmOffset
  let rightPwm := wheelPwmFromCount F rightCount (rightTargetPulses F) elapsedMs rightPwmOffset
  let syncAdjust := encoderSyncAdjust F leftCount rightCount elapsedMs
  if leftPwm ≠ 0 ∧ rightPwm ≠ 0 then
    (toInt16 (leftPwm + syncAdjust), toInt16 (rightPwm - syncAdjust))
  else (leftPwm, rightPwm)

def run (r : Reading F) (leftTotal rightTotal : ℤ) (task : StraightTask F) : Decision F :=
  let elapsedMs := r.now - task.runStartedMs
  let leftCount := pulseCount leftTotal
  let rightCount := pulseCount rightTotal
  let yawError := task.yawReference - r.yawDeg
  if elapsedMs > runTimeoutMs then
    { task := { task with state := .fault, faultStatus := -2 }
      yawError, leftPwm := 0, rightPwm := 0, elapsedMs, calls := [] }
  else if leftCount ≥ leftTargetPulses F ∧ rightCount ≥ rightTargetPulses F then
    { task :=
        { task with
          brakeStartedMs := r.now
          faultStatus := task.faultStatus ||| 1
          state := .done }
      yawError, leftPwm := 0, rightPwm := 0, elapsedMs, calls := brakeMotors }
  else
    let (leftPwm, rightPwm) := wheelDuties F leftCount rightCount elapsedMs
    { task, yawError, leftPwm, rightPwm, elapsedMs,
      calls := [wheelCall 0 leftPwm, wheelCall 1 rightPwm] }

/-- After a run: the brakes for a while, then nothing. -/
def hold (r : Reading F) (task : StraightTask F) : Decision F where
  task := task
  yawError := task.yawReference - r.yawDeg
  leftPwm := 0
  rightPwm := 0
  elapsedMs := task.brakeStartedMs - task.runStartedMs
  calls := if r.now - task.brakeStartedMs < brakeHoldMs then brakeMotors else stopMotors

/-- Before the first run, and after a fault. -/
def stand (task : StraightTask F) : Decision F where
  task := task
  yawError := 0.0
  leftPwm := 0
  rightPwm := 0
  elapsedMs := 0
  calls := stopMotors

/-- The stop that a fault adds at the end. -/
def stopOnFault (d : Decision F) : Decision F :=
  if d.task.state = .fault then { d with calls := d.calls ++ stopMotors } else d

/-- The motor part of an iteration. -/
def drive (r : Reading F) (leftTotal rightTotal : ℤ) (task : StraightTask F) : Decision F :=
  stopOnFault
    (match task.state with
    | .running => run r leftTotal rightTotal task
    | .done => hold r task
    | _ => stand task)

end Float

/-! ### The system -/

/-- The state that the tasks share, with the board that the motor module drives. -/
structure Shared where
  supervisor : Supervisor
  motor : BspMotor
  encoder : BspEncoder

/-- What has a higher priority than the control task. The pins of the board change at any
time; `beat` is the heartbeat of a task that shares nothing else. -/
inductive Interruption
  | pinChange (p : Pin)
  | encoderIrq
  | fast (now : UInt32)
  | health (now : UInt32)
  | beat (task : HealthTaskId) (now : UInt32)
  | faultRaise (code : SystemFaultCode) (detail : UInt32)

namespace Shared

def setBoard (s : Shared) (b : Board) : Shared := { s with motor := { s.motor with board := b } }

/-- `g_tick_ms = now`. -/
def setTick (s : Shared) (now : UInt32) : Shared :=
  s.setBoard { s.motor.board with gTickMs := now }

def beat (s : Shared) (task : HealthTaskId) (now : UInt32) : Shared :=
  { s with
    supervisor := { s.supervisor with health := systemHealthBeat task now s.supervisor.health } }

/-- One iteration of `fast_task`. -/
def fastTask (now : UInt32) (s : Shared) : Shared :=
  let s := s.setTick now
  let s := { s with encoder := bspEncoderPoll s.motor.board s.encoder }
  let s := { s with motor := bspMotorSafetyTick now s.motor }
  s.beat .fastIo now

def interrupt (s : Shared) : Interruption → Shared
  | .pinChange p => s.setBoard (EncoderIrq.changePin p s.motor.board)
  | .encoderIrq =>
      let (encoder, board) := group1IrqHandler s.encoder s.motor.board
      { s.setBoard board with encoder }
  | .fast now => s.fastTask now
  | .health now =>
      let (supervisor, motor) := healthTask now s.supervisor s.motor
      { s with supervisor, motor }
  | .beat task now => s.beat task now
  | .faultRaise code detail =>
      let (fault, motor) := systemFaultRaise code detail s.supervisor.fault s.motor
      { s with supervisor := { s.supervisor with fault }, motor }

/-- The calls are made one by one, with interruptions before the first, between two, and
after the last. -/
def makeCalls : (ℕ → List Interruption) → List MotorCall → Shared → Shared
  | between, [], s => (between 0).foldl interrupt s
  | between, call :: calls, s =>
      let s := (between 0).foldl interrupt s
      makeCalls (fun k => between (k + 1)) calls { s with motor := call.perform s.motor }

end Shared

/-- What an iteration is given: the time, the IMU snapshot, and the interruptions before each
of the two totals is read and around the motor calls. -/
structure StraightInput (F : Type*) where
  now : UInt32
  imu : ImuSnapshot F
  beforeLeft : List Interruption
  beforeRight : List Interruption
  between : ℕ → List Interruption

structure StraightSystem (F : Type*) where
  task : StraightTask F
  lineSensor : DevLineSensor F
  shared : Shared
  snapshot : StraightSnapshot F

/-- A step: an iteration of `control_task`, or what happens between two of them. -/
inductive StraightEvent (F : Type*)
  | control (i : StraightInput F)
  | interruption (e : Interruption)

/-- `s_start_stop_button`. -/
def sStartStopButton : DrvGpioPin := { pin := ⟨.gpioB, 21⟩, activeLow := true }

section System

variable {F : Type*} [CFloat F]

/-- What the iteration reads before the encoders. -/
def reading (i : StraightInput F) (s : StraightSystem F) : Reading F where
  now := i.now
  pressed :=
    (readButtonPressEvent (drvGpioReadActive sStartStopButton s.shared.motor.board)
      s.task.button).1
  yawDeg := i.imu.yawDeg
  lineRaw := (bspAdcGetCCD s.lineSensor s.shared.motor.board).1
  faultActive := systemFaultIsActive s.shared.supervisor.fault

/-- The variables with the button read. -/
def buttonRead (s : StraightSystem F) : StraightTask F :=
  { s.task with
    button :=
      (readButtonPressEvent (drvGpioReadActive sStartStopButton s.shared.motor.board)
        s.task.button).2 }

/-- The button has ended a run, so that the brakes have been commanded already. -/
def buttonCalls (r : Reading F) (task : StraightTask F) : List MotorCall :=
  if endsRun r (checkFault r task) then brakeMotors else []

/-- The totals start from zero with a run. -/
def resetEncoders (r : Reading F) (task : StraightTask F) (shared : Shared) : Shared :=
  if startsRun r (checkFault r task) then
    let b := shared.motor.board
    { shared with encoder := bspEncoderReset 1 b (bspEncoderReset 0 b shared.encoder) }
  else shared

/-- The shared state when the left total, and when the right total is read. -/
def atLeftTotal (i : StraightInput F) (s : StraightSystem F) : Shared :=
  i.beforeLeft.foldl Shared.interrupt
    (resetEncoders (reading i s) (buttonRead s) (s.shared.setTick i.now))

def atRightTotal (i : StraightInput F) (s : StraightSystem F) : Shared :=
  i.beforeRight.foldl Shared.interrupt (atLeftTotal i s)

/-- What an iteration decides. -/
def decision (i : StraightInput F) (s : StraightSystem F) : Decision F :=
  let r := reading i s
  let d := drive r (bspEncoderGetTotal 0 (atLeftTotal i s).encoder)
    (bspEncoderGetTotal 1 (atRightTotal i s).encoder) (updateState r (buttonRead s))
  { d with calls := buttonCalls r (buttonRead s) ++ d.calls }

/-- One iteration of `control_task`. -/
def controlTask (i : StraightInput F) (s : StraightSystem F) : StraightSystem F :=
  let r := reading i s
  let d := decision i s
  let shared := Shared.makeCalls i.between d.calls (atRightTotal i s)
  { task := d.task
    lineSensor := (bspAdcGetCCD s.lineSensor s.shared.motor.board).2
    shared := shared.beat .control i.now
    snapshot :=
      { state := d.task.state
        leftTotal := bspEncoderGetTotal 0 shared.encoder
        rightTotal := bspEncoderGetTotal 1 shared.encoder
        yawDeg := i.imu.yawDeg
        yawReferenceDeg := d.task.yawReference
        yawErrorDeg := d.yawError
        leftPwm := d.leftPwm
        rightPwm := d.rightPwm
        elapsedMs := d.elapsedMs
        status := d.task.faultStatus
        centerLevel := r.centerLevel
        startBlackLevel := d.task.startBlackLevel
        leftStartLine := d.task.leftStartLine } }

def step (s : StraightSystem F) : StraightEvent F → StraightSystem F
  | .control i => controlTask i s
  | .interruption e => { s with shared := s.shared.interrupt e }

/-- What `main` leaves when it starts the scheduler, with the variables of the task. -/
def start (b : Board) : StraightSystem F where
  task := .initial
  lineSensor := bspAdcInit
  shared :=
    { supervisor := { fault := systemFaultInit, health := systemHealthInit 0, watchdogFeeds := 0 }
      motor := bspMotorInit b
      encoder := bspEncoderInit (bspMotorInit b).board }
  snapshot :=
    { state := .waitImu, leftTotal := 0, rightTotal := 0, yawDeg := 0.0, yawReferenceDeg := 0.0
      yawErrorDeg := 0.0, leftPwm := 0, rightPwm := 0, elapsedMs := 0, status := 0
      centerLevel := false, startBlackLevel := false, leftStartLine := false }

end System

end NuedcFirmware.Tests.Straight
