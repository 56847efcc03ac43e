import NuedcFirmware.Modules.Icm45688
import NuedcFirmware.System.Supervision

/-!
The IMU service `imu_service.c`: start-up with its initialisation attempts, the
snapshot it publishes, and the yaw calibration that its endless loop serves.
-/

namespace NuedcFirmware.Modules

open NuedcFirmware.Lib NuedcFirmware.System

inductive ImuState
  | off
  | initializing
  | calibrating
  | ready
  | fault
  deriving DecidableEq, Repr

inductive ImuYawCalState
  | idle
  | waitStill
  | waitPositive
  | positiveActive
  | waitNegative
  | negativeActive
  | complete
  | failed
  deriving DecidableEq, Repr

structure ImuSnapshot (F : Type*) where
  sequence : UInt32
  timestampMs : UInt32
  accelG : F × F × F
  gyroDps : F × F × F
  temperatureC : F
  pitchDeg : F
  rollDeg : F
  yawDeg : F
  gyroBiasZDps : F
  gyroScaleZ : F
  status : ℤ
  state : ImuState
  yawCalState : ImuYawCalState
  stationary : Bool
  ready : Bool

structure YawCalibration (F : Type*) where
  state : ImuYawCalState
  settleSamples : ℕ
  phaseOriginDeg : F
  positiveMeasuredDeg : F
  negativeMeasuredDeg : F
  positiveScale : F
  negativeScale : F
  resultScale : F
  previousScale : F

/-- The static state of `imu_service.c`. -/
structure ImuService (F : Type*) where
  imu : Icm45688 F
  snapshot : ImuSnapshot F
  yawCal : YawCalibration F
  yawCalStartRequested : Bool
  yawCalCancelRequested : Bool

variable {F : Type*} [CMath F]

/-! ### `imu_profile.c` -/

structure ImuCalibratedProfile (F : Type*) where
  samplePeriodS : F
  filterAlpha : F
  accelLpfHz : F
  gyroLpfHz : F
  stationaryGyroDps : F
  stationaryAccelG : F
  stationaryHoldSamples : ℕ
  accelTrustWindowG : F
  accelRejectionDeg : F
  mahonyKp : F
  mahonyKi : F
  gyroCalWarmupSamples : ℕ
  gyroCalSamples : ℕ
  gyroCalStddevLimitDps : F
  gyroBiasLearningRate : F
  gyroZScale : F

/-- `g_imu_calibrated_profile`. -/
def gImuCalibratedProfile : ImuCalibratedProfile F where
  samplePeriodS := 0.005
  filterAlpha := 0.98
  accelLpfHz := 30.0
  gyroLpfHz := 0.0
  stationaryGyroDps := 1.5
  stationaryAccelG := 0.08
  stationaryHoldSamples := 5
  accelTrustWindowG := 0.15
  accelRejectionDeg := 10.0
  mahonyKp := 1.0
  mahonyKi := 0.0
  gyroCalWarmupSamples := 200
  gyroCalSamples := 2000
  gyroCalStddevLimitDps := 0.50
  gyroBiasLearningRate := 0.002
  gyroZScale := 0.994821

/-! ### Start-up -/

/-- The `memset` of a calibration record. -/
def YawCalibration.zero : YawCalibration F where
  state := .idle
  settleSamples := 0
  phaseOriginDeg := 0.0
  positiveMeasuredDeg := 0.0
  negativeMeasuredDeg := 0.0
  positiveScale := 0.0
  negativeScale := 0.0
  resultScale := 0.0
  previousScale := 0.0

/-- The `memset` of the snapshot. -/
def ImuSnapshot.zero : ImuSnapshot F where
  sequence := 0
  timestampMs := 0
  accelG := (0.0, 0.0, 0.0)
  gyroDps := (0.0, 0.0, 0.0)
  temperatureC := 0.0
  pitchDeg := 0.0
  rollDeg := 0.0
  yawDeg := 0.0
  gyroBiasZDps := 0.0
  gyroScaleZ := 0.0
  status := 0
  state := .off
  yawCalState := .idle
  stationary := false
  ready := false

/-- `publish_snapshot`. -/
def publishSnapshot (state : ImuState) (status : ℤ) (nowMs : UInt32) (s : ImuService F) :
    ImuService F :=
  { s with
    snapshot :=
      { sequence := s.snapshot.sequence + 1
        timestampMs := nowMs
        accelG := (s.imu.axG, s.imu.ayG, s.imu.azG)
        gyroDps := (s.imu.gxDps, s.imu.gyDps, s.imu.gzDps)
        temperatureC := s.imu.tempC
        pitchDeg := s.imu.pitchDeg
        rollDeg := s.imu.rollDeg
        yawDeg := s.imu.yawDeg
        gyroBiasZDps := s.imu.gyroBiasZDps
        gyroScaleZ := s.imu.gyroScaleZ
        status
        state
        yawCalState := s.yawCal.state
        stationary := s.imu.stationary
        ready := s.imu.ready } }

/-- `configure_imu_handle`. -/
def configureImuHandle : Icm45688 F :=
  let profile : ImuCalibratedProfile F := gImuCalibratedProfile
  Icm45688.initHandleSpi
    |>.setFilter profile.samplePeriodS profile.filterAlpha
    |>.setSampleLowPass profile.accelLpfHz profile.gyroLpfHz
    |>.setStationaryDetection profile.stationaryGyroDps profile.stationaryAccelG
        profile.stationaryHoldSamples
    |>.setAttitudeMode .mahony6Axis
    |>.setAccelTrustWindow profile.accelTrustWindowG
    |>.setAccelRejection profile.accelRejectionDeg
    |>.setMahonyGains profile.mahonyKp profile.mahonyKi

def icm45688ExpectedWhoami : UInt8 := 0xE9

def icm45688InitRetries : ℕ := 5

/-- What the sensor answers in one initialisation attempt: status and identity of
`ICM45688_MSPM0_ReadWhoAmI`, and the status of `ICM45688_MSPM0_Begin` should it be
called. -/
structure InitAttempt where
  whoStatus : ℤ
  whoami : UInt8
  beginStatus : ℤ

/-- The loop variables of the initialisation: the handle, the status, and the
number of the attempt made last. -/
structure InitProgress (F : Type*) where
  imu : Icm45688 F
  status : ℤ
  attempt : ℕ

/-- One pass of the initialisation loop. -/
def initOnce (attempt : ℕ) (answer : InitAttempt) : InitProgress F :=
  let imu := configureImuHandle
  let status := answer.whoStatus
  if status = invImuOk ∧ answer.whoami = icm45688ExpectedWhoami then
    { imu := imu.begin answer.beginStatus, status := answer.beginStatus, attempt }
  else { imu, status, attempt }

/-- The initialisation loop, with `remaining` passes left before pass `attempt`. -/
def initLoop (answers : ℕ → InitAttempt) (attempt : ℕ) :
    ℕ → InitProgress F → InitProgress F
  | 0, p => p
  | remaining + 1, _ =>
      let p := initOnce attempt (answers attempt)
      if p.status = invImuOk then p else initLoop answers (attempt + 1) remaining p

/-- What the first part of `IMU_Service_Task` leaves behind, up to the gyro
calibration or the endless wait in the fault state. -/
structure StartupResult (F : Type*) where
  service : ImuService F
  fault : FaultManager
  motor : BspMotor
  attempts : ℕ

/-- The first part of `IMU_Service_Task`, the sensor giving `answers`. -/
def imuServiceStartup (answers : ℕ → InitAttempt) (nowMs : UInt32) (s : ImuService F)
    (fault : FaultManager) (motor : BspMotor) : StartupResult F :=
  let s := publishSnapshot .initializing invImuError nowMs s
  let p := initLoop answers 1 icm45688InitRetries
    { imu := s.imu, status := invImuError, attempt := 0 }
  let s := { s with imu := p.imu }
  if p.status ≠ invImuOk then
    let s := publishSnapshot .fault p.status nowMs s
    let (fault, motor) := systemFaultRaise .imu (UInt32.ofInt p.status) fault motor
    { service := s, fault, motor, attempts := p.attempt }
  else
    { service := publishSnapshot .calibrating p.status nowMs s, fault, motor,
      attempts := p.attempt }

/-- The end of `calibrate_gyro_bias`, once a window of samples was quiet: the bias
is the mean rate of each axis, and the scale that of the profile. -/
def finishGyroCalibration (imu : Icm45688 F) (gxMean gyMean gzMean : F) : Icm45688 F :=
  let profile : ImuCalibratedProfile F := gImuCalibratedProfile
  imu.setGyroBias gxMean gyMean gzMean
    |>.setGyroScale 1.0 1.0 profile.gyroZScale
    |>.setGyroBiasAutoUpdate true profile.gyroBiasLearningRate
    |>.resetSampleLowPass
    |>.resetAttitude

/-! ### Yaw calibration -/

def yawCalFourLapDeg : F := 1440.0
def yawCalMotionStartDps : F := 5.0
def yawCalCaptureMinRatio : F := 0.90
def yawCalSettleSamples : ℕ := 40
def yawCalScaleMin : F := 0.85
def yawCalScaleMax : F := 1.15
def yawCalDirectionMismatchMax : F := 0.02

/-- `abs_float`. -/
def absFloat (value : F) : F := if value < 0.0 then -value else value

/-- `scale_is_valid`. -/
def scaleIsValid (scale : F) : Bool := scale ≥ yawCalScaleMin && scale ≤ yawCalScaleMax

namespace ImuService

/-- The Z scale of the device is set, the others are kept. -/
def setScaleZ (s : ImuService F) (scale : F) : ImuService F :=
  { s with imu := s.imu.setGyroScale s.imu.gyroScaleX s.imu.gyroScaleY scale }

def resetAttitude (s : ImuService F) : ImuService F := { s with imu := s.imu.resetAttitude }

/-- `fail_yaw_calibration`. -/
def failYawCalibration (s : ImuService F) : ImuService F :=
  let s :=
    { s with
      yawCal := { s.yawCal with state := .failed, resultScale := s.yawCal.previousScale } }
  (s.setScaleZ s.yawCal.previousScale).resetAttitude

/-- `start_yaw_calibration`. -/
def startYawCalibration (s : ImuService F) : ImuService F :=
  let previousScale := s.imu.gyroScaleZ
  let s :=
    { s with
      yawCal := { YawCalibration.zero with state := .waitStill, resultScale := 1.0, previousScale } }
  let s := s.setScaleZ 1.0
  ({ s with imu := s.imu.resetSampleLowPass }).resetAttitude

/-- `complete_yaw_calibration`. -/
def completeYawCalibration (s : ImuService F) : ImuService F :=
  let scaleSum := s.yawCal.positiveScale + s.yawCal.negativeScale
  let scaleDifference := absFloat (s.yawCal.positiveScale - s.yawCal.negativeScale)
  if !scaleIsValid s.yawCal.positiveScale ∨ !scaleIsValid s.yawCal.negativeScale ∨
      scaleSum ≤ 0.0 ∨ 2.0 * scaleDifference / scaleSum > yawCalDirectionMismatchMax then
    s.failYawCalibration
  else
    let resultScale :=
      2.0 * yawCalFourLapDeg / (s.yawCal.positiveMeasuredDeg - s.yawCal.negativeMeasuredDeg)
    let s := { s with yawCal := { s.yawCal with resultScale } }
    if !scaleIsValid resultScale then s.failYawCalibration
    else
      let s := (s.setScaleZ resultScale).resetAttitude
      { s with yawCal := { s.yawCal with phaseOriginDeg := 0.0, state := .complete } }

/-- The settle counter of the states that wait for a standstill: below its limit
it only counts, at the limit `done` follows. -/
def settle (s : ImuService F) (still : Bool) (done : ImuService F → ImuService F) :
    ImuService F :=
  if still then
    let s := { s with yawCal := { s.yawCal with settleSamples := s.yawCal.settleSamples + 1 } }
    if s.yawCal.settleSamples ≥ yawCalSettleSamples then done s else s
  else { s with yawCal := { s.yawCal with settleSamples := 0 } }

/-- `update_yaw_calibration`. -/
def updateYawCalibration (s : ImuService F) : ImuService F :=
  let phaseYawDeg := s.imu.yawDeg - s.yawCal.phaseOriginDeg
  match s.yawCal.state with
  | .waitStill =>
      s.settle s.imu.stationary fun s =>
        let s := s.resetAttitude
        { s with
          yawCal :=
            { s.yawCal with phaseOriginDeg := 0.0, settleSamples := 0, state := .waitPositive } }
  | .waitPositive =>
      if s.imu.gzDps ≥ yawCalMotionStartDps then
        { s with yawCal := { s.yawCal with state := .positiveActive } }
      else s
  | .positiveActive =>
      s.settle (s.imu.stationary && phaseYawDeg ≥ yawCalFourLapDeg * yawCalCaptureMinRatio)
        fun s =>
          let positiveScale := yawCalFourLapDeg / phaseYawDeg
          let s :=
            { s with
              yawCal := { s.yawCal with positiveMeasuredDeg := phaseYawDeg, positiveScale } }
          if !scaleIsValid positiveScale then s.failYawCalibration
          else
            { s with
              yawCal :=
                { s.yawCal with
                  phaseOriginDeg := s.imu.yawDeg, settleSamples := 0, state := .waitNegative } }
  | .waitNegative =>
      if s.imu.gzDps ≤ -yawCalMotionStartDps then
        { s with yawCal := { s.yawCal with state := .negativeActive } }
      else s
  | .negativeActive =>
      s.settle (s.imu.stationary && phaseYawDeg ≤ -(yawCalFourLapDeg * yawCalCaptureMinRatio))
        fun s =>
          completeYawCalibration
            { s with
              yawCal :=
                { s.yawCal with
                  negativeMeasuredDeg := phaseYawDeg
                  negativeScale := -yawCalFourLapDeg / phaseYawDeg } }
  | .idle | .complete | .failed => s

/-- The cancel half of `service_yaw_requests`. -/
def cancelYawCalibration (s : ImuService F) : ImuService F :=
  let previousState := s.yawCal.state
  let previousScale := s.yawCal.previousScale
  let s := { s with yawCalCancelRequested := false, yawCal := YawCalibration.zero }
  let s :=
    if previousState ≠ .idle ∧ previousState ≠ .complete ∧ previousScale > 0.0 then
      s.setScaleZ previousScale
    else s
  s.resetAttitude

/-- `service_yaw_requests`. -/
def serviceYawRequests (s : ImuService F) : ImuService F :=
  let s := if s.yawCalCancelRequested then s.cancelYawCalibration else s
  if s.yawCalStartRequested then startYawCalibration { s with yawCalStartRequested := false }
  else s

end ImuService

/-- What one wait for a sample comes to: an error of the data-ready query or a
timeout, or a register read with its status and data. -/
inductive ImuRead
  | error (status : ℤ) (h : status ≠ invImuOk)
  | data (status : ℤ) (raw : InvImuSensorData)

/-- `wait_and_update_imu`. -/
def waitAndUpdateImu (imu : Icm45688 F) : ImuRead → ℤ × Icm45688 F
  | .error status _ => (status, imu)
  | .data status raw => imu.update status raw

/-- The endless loop of `IMU_Service_Task` after its requests are served: wait for
a sample, advance the calibration, publish. -/
def imuServiceSample (read : ImuRead) (nowMs : UInt32) (s : ImuService F) : ImuService F :=
  let (status, imu) := waitAndUpdateImu s.imu read
  let s := { s with imu }
  let s := if status = invImuOk then s.updateYawCalibration else s
  publishSnapshot .ready status nowMs s

/-- `IMU_Service_Init`, the device record still zero. -/
def imuServiceInit : ImuService F where
  imu := Icm45688.zero
  snapshot := ImuSnapshot.zero
  yawCal := YawCalibration.zero
  yawCalStartRequested := false
  yawCalCancelRequested := false

def imuRequestYawCalibration (s : ImuService F) : ImuService F :=
  { s with yawCalStartRequested := true }

def imuCancelYawCalibration (s : ImuService F) : ImuService F :=
  { s with yawCalCancelRequested := true }

end NuedcFirmware.Modules
