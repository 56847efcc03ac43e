import NuedcFirmware.Lib.CFloat
import Mathlib.Data.UInt

/-!
The ICM45688 device layer `dev_icm45688.c`: sample filtering, standstill
detection, gyro bias learning and the two attitude filters.

The register traffic of the vendor driver is not modelled: an operation that
talks to the sensor takes the status and the data the driver reports.
-/

namespace NuedcFirmware.Modules

open NuedcFirmware.Lib

/-- `INV_IMU_OK`, `INV_IMU_ERROR` and `INV_IMU_ERROR_TIMEOUT`. -/
def invImuOk : ℤ := 0
def invImuError : ℤ := -1
def invImuErrorTimeout : ℤ := -4

inductive AttitudeMode
  | complementary
  | mahony6Axis
  deriving DecidableEq, Repr

structure Icm45688 (F : Type*) where
  ready : Bool
  stationary : Bool
  gyroBiasAutoUpdate : Bool
  sampleLpfInitialized : Bool
  gyroBiasStationarySamples : ℕ
  accelFsrG : F
  gyroFsrDps : F
  gyroBiasXDps : F
  gyroBiasYDps : F
  gyroBiasZDps : F
  gyroScaleX : F
  gyroScaleY : F
  gyroScaleZ : F
  stationaryGyroThresholdDps : F
  stationaryAccelThresholdG : F
  gyroBiasLearningRate : F
  accelLpfCutoffHz : F
  gyroLpfCutoffHz : F
  filterDtS : F
  filterAlpha : F
  attitudeMode : AttitudeMode
  accelTrustWindowG : F
  accelRejectionThresholdSq : F
  mahonyKp : F
  mahonyKi : F
  mahonyIntegralX : F
  mahonyIntegralY : F
  mahonyIntegralZ : F
  quatW : F
  quatX : F
  quatY : F
  quatZ : F
  stationaryHoldSamples : ℕ
  stationarySampleCount : ℕ
  axG : F
  ayG : F
  azG : F
  gxDps : F
  gyDps : F
  gzDps : F
  tempC : F
  pitchDeg : F
  rollDeg : F
  yawDeg : F

/-- The register data of one sample, signed 16-bit words. -/
structure InvImuSensorData where
  accelX : ℤ
  accelY : ℤ
  accelZ : ℤ
  gyroX : ℤ
  gyroY : ℤ
  gyroZ : ℤ
  temp : ℤ

variable {F : Type*} [CMath F]

namespace Icm45688

def rawMax : F := 32768.0
def degToRad : F := 0.0174532925
def radToDeg : F := 57.2957795
def minNormSq : F := 0.000001
def twoPi : F := 6.283185307
def yawLockGyroDps : F := 0.25
def biasLearnStationarySamples : ℕ := 600
def biasLearnGyroDps : F := 0.35

/-- `ICM45688_MSPM0_ResetAttitude`. -/
def resetAttitude (dev : Icm45688 F) : Icm45688 F :=
  { dev with
    pitchDeg := 0.0
    rollDeg := 0.0
    yawDeg := 0.0
    mahonyIntegralX := 0.0
    mahonyIntegralY := 0.0
    mahonyIntegralZ := 0.0
    quatW := 1.0
    quatX := 0.0
    quatY := 0.0
    quatZ := 0.0 }

/-- `clear_measurements`. -/
def clearMeasurements (dev : Icm45688 F) : Icm45688 F :=
  resetAttitude
    { dev with
      axG := 0.0
      ayG := 0.0
      azG := 0.0
      gxDps := 0.0
      gyDps := 0.0
      gzDps := 0.0
      tempC := 0.0
      stationary := false
      stationarySampleCount := 0
      gyroBiasStationarySamples := 0
      sampleLpfInitialized := false }

/-- `clampf_local`. -/
def clampf (value minValue maxValue : F) : F :=
  if value < minValue then minValue else if value > maxValue then maxValue else value

/-- `lpf_alpha`. -/
def lpfAlpha (cutoffHz dtS : F) : F :=
  if cutoffHz ≤ 0.0 ∨ dtS ≤ 0.0 then 1.0
  else
    let x := twoPi * cutoffHz * dtS
    clampf (x / (1.0 + x)) 0.0 1.0

/-- `lpf_step`. -/
def lpfStep (prev input cutoffHz dtS : F) : F :=
  let alpha := lpfAlpha cutoffHz dtS
  prev + alpha * (input - prev)

/-- `yaw_should_lock`. -/
def yawShouldLock (dev : Icm45688 F) : Bool :=
  dev.stationary && fabsf dev.gzDps ≤ yawLockGyroDps

/-- The first loop of `wrap_degrees_180`, for at most `fuel` rounds. -/
def wrapDown : ℕ → F → F
  | 0, angleDeg => angleDeg
  | fuel + 1, angleDeg => if angleDeg > 180.0 then wrapDown fuel (angleDeg - 360.0) else angleDeg

/-- The second loop of `wrap_degrees_180`, for at most `fuel` rounds. -/
def wrapUp : ℕ → F → F
  | 0, angleDeg => angleDeg
  | fuel + 1, angleDeg => if angleDeg ≤ -180.0 then wrapUp fuel (angleDeg + 360.0) else angleDeg

/-- `wrap_degrees_180`. A round moves the angle by more than 1, so the number of
rounds is at most the integer part of the argument and one. -/
def wrapDegrees180 (angleDeg : F) : F :=
  let fuel := (truncate angleDeg).natAbs + 1
  wrapUp fuel (wrapDown fuel angleDeg)

/-- `apply_sample_lowpass`. -/
def applySampleLowpass (dev : Icm45688 F) (rawAxG rawAyG rawAzG : F)
    (correctedGxDps correctedGyDps correctedGzDps : F) : Icm45688 F :=
  if !dev.sampleLpfInitialized then
    { dev with
      axG := rawAxG
      ayG := rawAyG
      azG := rawAzG
      gxDps := correctedGxDps
      gyDps := correctedGyDps
      gzDps := correctedGzDps
      sampleLpfInitialized := true }
  else
    { dev with
      axG := lpfStep dev.axG rawAxG dev.accelLpfCutoffHz dev.filterDtS
      ayG := lpfStep dev.ayG rawAyG dev.accelLpfCutoffHz dev.filterDtS
      azG := lpfStep dev.azG rawAzG dev.accelLpfCutoffHz dev.filterDtS
      gxDps := lpfStep dev.gxDps correctedGxDps dev.gyroLpfCutoffHz dev.filterDtS
      gyDps := lpfStep dev.gyDps correctedGyDps dev.gyroLpfCutoffHz dev.filterDtS
      gzDps := lpfStep dev.gzDps correctedGzDps dev.gyroLpfCutoffHz dev.filterDtS }

/-- `accel_is_trusted`, with the norm it stores when the answer is yes. -/
def accelIsTrusted (dev : Icm45688 F) : Option F :=
  let normSq := dev.axG * dev.axG + dev.ayG * dev.ayG + dev.azG * dev.azG
  if normSq ≤ minNormSq then none
  else if dev.accelTrustWindowG ≤ 0.0 then some (sqrtf normSq)
  else
    let norm := sqrtf normSq
    if fabsf (norm - 1.0) ≤ dev.accelTrustWindowG then some norm else none

/-- The body of `quat_from_euler`, with the factor from degrees to radians as a parameter. -/
def quatFromEulerBy (toRadians : F) (dev : Icm45688 F) : Icm45688 F :=
  let halfRoll := dev.pitchDeg * toRadians * 0.5
  let halfPitch := dev.rollDeg * toRadians * 0.5
  let halfYaw := dev.yawDeg * toRadians * 0.5
  let cr := cosf halfRoll
  let sr := sinf halfRoll
  let cp := cosf halfPitch
  let sp := sinf halfPitch
  let cy := cosf halfYaw
  let sy := sinf halfYaw
  { dev with
    quatW := cr * cp * cy + sr * sp * sy
    quatX := sr * cp * cy - cr * sp * sy
    quatY := cr * sp * cy + sr * cp * sy
    quatZ := cr * cp * sy - sr * sp * cy }

/-- `quat_from_euler`. -/
def quatFromEuler (dev : Icm45688 F) : Icm45688 F := quatFromEulerBy degToRad dev

/-- The body of `euler_from_quat`, with the factor from radians to degrees as a parameter. -/
def eulerFromQuatBy (toDegrees : F) (dev : Icm45688 F) : Icm45688 F :=
  let qw := dev.quatW
  let qx := dev.quatX
  let qy := dev.quatY
  let qz := dev.quatZ
  let previousYawDeg := dev.yawDeg
  let pitchDeg :=
    atan2f (2.0 * (qw * qx + qy * qz)) (1.0 - 2.0 * (qx * qx + qy * qy)) * toDegrees
  let sinPitchY := 2.0 * (qw * qy - qz * qx)
  let rollDeg := asinf (clampf sinPitchY (-1.0) 1.0) * toDegrees
  let yawWrappedDeg :=
    atan2f (2.0 * (qw * qz + qx * qy)) (1.0 - 2.0 * (qy * qy + qz * qz)) * toDegrees
  let yawDeltaDeg := wrapDegrees180 (yawWrappedDeg - wrapDegrees180 previousYawDeg)
  { dev with pitchDeg, rollDeg, yawDeg := previousYawDeg + yawDeltaDeg }

/-- `euler_from_quat`. -/
def eulerFromQuat (dev : Icm45688 F) : Icm45688 F := eulerFromQuatBy radToDeg dev

/-- `update_complementary_attitude`. -/
def updateComplementaryAttitude (dev : Icm45688 F) : Icm45688 F :=
  let alpha := dev.filterAlpha
  let gyroPitch := dev.pitchDeg + dev.gxDps * dev.filterDtS
  let gyroRoll := dev.rollDeg + dev.gyDps * dev.filterDtS
  let dev :=
    match dev.accelIsTrusted with
    | some _ =>
        let accPitch := atan2f dev.ayG dev.azG * radToDeg
        let accRoll :=
          atan2f (-dev.axG) (sqrtf (dev.ayG * dev.ayG + dev.azG * dev.azG)) * radToDeg
        { dev with
          pitchDeg := alpha * gyroPitch + (1.0 - alpha) * accPitch
          rollDeg := alpha * gyroRoll + (1.0 - alpha) * accRoll }
    | none => { dev with pitchDeg := gyroPitch, rollDeg := gyroRoll }
  if !dev.yawShouldLock then { dev with yawDeg := dev.yawDeg + dev.gzDps * dev.filterDtS }
  else dev

/-- The first part of `update_mahony_attitude`: the rates in radians, corrected
by the direction of gravity where the accelerometer is trusted. -/
def mahonyRates (dev : Icm45688 F) : Icm45688 F × F × F × F :=
  let gx := dev.gxDps * degToRad
  let gy := dev.gyDps * degToRad
  let gz := dev.gzDps * degToRad
  match dev.accelIsTrusted with
  | none => (dev, gx, gy, gz)
  | some accelNorm =>
      let ax := dev.axG / accelNorm
      let ay := dev.ayG / accelNorm
      let az := dev.azG / accelNorm
      let halfvx := dev.quatX * dev.quatZ - dev.quatW * dev.quatY
      let halfvy := dev.quatW * dev.quatX + dev.quatY * dev.quatZ
      let halfvz := dev.quatW * dev.quatW - 0.5 + dev.quatZ * dev.quatZ
      let halfex := ay * halfvz - az * halfvy
      let halfey := az * halfvx - ax * halfvz
      let halfez := ax * halfvy - ay * halfvx
      let feedbackNormSq := halfex * halfex + halfey * halfey + halfez * halfez
      let feedbackTrusted : Bool :=
        dev.stationary || dev.accelRejectionThresholdSq ≤ 0.0 ||
          feedbackNormSq ≤ dev.accelRejectionThresholdSq
      let (dev, gx, gy, gz) :=
        if feedbackTrusted ∧ dev.mahonyKi > 0.0 then
          let dev :=
            { dev with
              mahonyIntegralX := dev.mahonyIntegralX + dev.mahonyKi * halfex * dev.filterDtS
              mahonyIntegralY := dev.mahonyIntegralY + dev.mahonyKi * halfey * dev.filterDtS
              mahonyIntegralZ := dev.mahonyIntegralZ + dev.mahonyKi * halfez * dev.filterDtS }
          (dev, gx + dev.mahonyIntegralX, gy + dev.mahonyIntegralY, gz + dev.mahonyIntegralZ)
        else if dev.mahonyKi ≤ 0.0 then
          ({ dev with mahonyIntegralX := 0.0, mahonyIntegralY := 0.0, mahonyIntegralZ := 0.0 },
            gx, gy, gz)
        else (dev, gx, gy, gz)
      if feedbackTrusted then
        (dev, gx + dev.mahonyKp * halfex, gy + dev.mahonyKp * halfey, gz + dev.mahonyKp * halfez)
      else (dev, gx, gy, gz)

/-- The second part of `update_mahony_attitude`: the quaternion turned by the
rates over one sample period, and normalised. -/
def rotateQuat (dev : Icm45688 F) (gx gy gz : F) : Icm45688 F :=
  let qw := dev.quatW
  let qx := dev.quatX
  let qy := dev.quatY
  let qz := dev.quatZ
  let halfDt := 0.5 * dev.filterDtS
  let halfAngleSq := (gx * gx + gy * gy + gz * gz) * halfDt * halfDt
  let halfAnglePow4 := halfAngleSq * halfAngleSq
  let deltaW := 1.0 - 0.5 * halfAngleSq + halfAnglePow4 * (1.0 / 24.0)
  let vectorScale :=
    halfDt * (1.0 - halfAngleSq * (1.0 / 6.0) + halfAnglePow4 * (1.0 / 120.0))
  let deltaX := gx * vectorScale
  let deltaY := gy * vectorScale
  let deltaZ := gz * vectorScale
  let dev :=
    { dev with
      quatW := qw * deltaW - qx * deltaX - qy * deltaY - qz * deltaZ
      quatX := qw * deltaX + qx * deltaW + qy * deltaZ - qz * deltaY
      quatY := qw * deltaY - qx * deltaZ + qy * deltaW + qz * deltaX
      quatZ := qw * deltaZ + qx * deltaY - qy * deltaX + qz * deltaW }
  let normSq :=
    dev.quatW * dev.quatW + dev.quatX * dev.quatX + dev.quatY * dev.quatY + dev.quatZ * dev.quatZ
  if normSq > minNormSq then
    let invNorm := 1.0 / sqrtf normSq
    { dev with
      quatW := dev.quatW * invNorm
      quatX := dev.quatX * invNorm
      quatY := dev.quatY * invNorm
      quatZ := dev.quatZ * invNorm }
  else resetAttitude dev

/-- `update_mahony_attitude`. -/
def updateMahonyAttitude (dev : Icm45688 F) : Icm45688 F :=
  let heldYawDeg := dev.yawDeg
  let yawLocked := dev.yawShouldLock
  let (dev, gx, gy, gz) := dev.mahonyRates
  let (dev, gz) := if yawLocked then ({ dev with mahonyIntegralZ := 0.0 }, 0.0) else (dev, gz)
  let dev := eulerFromQuat (rotateQuat dev gx gy gz)
  if yawLocked then quatFromEuler { dev with yawDeg := heldYawDeg } else dev

/-- `update_stationary_state`. -/
def updateStationaryState (dev : Icm45688 F) : Icm45688 F :=
  let accelNormSq := dev.axG * dev.axG + dev.ayG * dev.ayG + dev.azG * dev.azG
  let gyroMagDps :=
    sqrtf (dev.gxDps * dev.gxDps + dev.gyDps * dev.gyDps + dev.gzDps * dev.gzDps)
  let accelErrG := fabsf (sqrtf accelNormSq - 1.0)
  let instantStationary : Bool :=
    (accelNormSq > minNormSq && dev.stationaryGyroThresholdDps > 0.0 &&
      dev.stationaryAccelThresholdG ≥ 0.0) &&
    (gyroMagDps ≤ dev.stationaryGyroThresholdDps && accelErrG ≤ dev.stationaryAccelThresholdG)
  let holdSamples := if dev.stationaryHoldSamples = 0 then 1 else dev.stationaryHoldSamples
  let stationarySampleCount :=
    if instantStationary then
      if dev.stationarySampleCount < holdSamples then dev.stationarySampleCount + 1
      else dev.stationarySampleCount
    else 0
  { dev with stationarySampleCount, stationary := stationarySampleCount ≥ holdSamples }

/-- `update_auto_gyro_bias`. -/
def updateAutoGyroBias (dev : Icm45688 F) (rawGxDps rawGyDps rawGzDps : F) : Icm45688 F :=
  if !dev.gyroBiasAutoUpdate then dev
  else if !dev.stationary ∨ fabsf dev.gxDps > biasLearnGyroDps ∨
      fabsf dev.gyDps > biasLearnGyroDps ∨ fabsf dev.gzDps > biasLearnGyroDps then
    { dev with gyroBiasStationarySamples := 0 }
  else if dev.gyroBiasStationarySamples < biasLearnStationarySamples then
    { dev with gyroBiasStationarySamples := dev.gyroBiasStationarySamples + 1 }
  else
    let learn := clampf dev.gyroBiasLearningRate 0.0 1.0
    if learn ≤ 0.0 then dev
    else
      { dev with
        gyroBiasXDps := dev.gyroBiasXDps + (rawGxDps - dev.gyroBiasXDps) * learn
        gyroBiasYDps := dev.gyroBiasYDps + (rawGyDps - dev.gyroBiasYDps) * learn
        gyroBiasZDps := dev.gyroBiasZDps + (rawGzDps - dev.gyroBiasZDps) * learn }

/-- The `memset` of a device record. -/
def zero : Icm45688 F where
  ready := false
  stationary := false
  gyroBiasAutoUpdate := false
  sampleLpfInitialized := false
  gyroBiasStationarySamples := 0
  accelFsrG := 0.0
  gyroFsrDps := 0.0
  gyroBiasXDps := 0.0
  gyroBiasYDps := 0.0
  gyroBiasZDps := 0.0
  gyroScaleX := 0.0
  gyroScaleY := 0.0
  gyroScaleZ := 0.0
  stationaryGyroThresholdDps := 0.0
  stationaryAccelThresholdG := 0.0
  gyroBiasLearningRate := 0.0
  accelLpfCutoffHz := 0.0
  gyroLpfCutoffHz := 0.0
  filterDtS := 0.0
  filterAlpha := 0.0
  attitudeMode := .complementary
  accelTrustWindowG := 0.0
  accelRejectionThresholdSq := 0.0
  mahonyKp := 0.0
  mahonyKi := 0.0
  mahonyIntegralX := 0.0
  mahonyIntegralY := 0.0
  mahonyIntegralZ := 0.0
  quatW := 0.0
  quatX := 0.0
  quatY := 0.0
  quatZ := 0.0
  stationaryHoldSamples := 0
  stationarySampleCount := 0
  axG := 0.0
  ayG := 0.0
  azG := 0.0
  gxDps := 0.0
  gyDps := 0.0
  gzDps := 0.0
  tempC := 0.0
  pitchDeg := 0.0
  rollDeg := 0.0
  yawDeg := 0.0

/-- `ICM45688_MSPM0_InitHandleSPI`, with the defaults of `init_attitude_defaults`. -/
def initHandleSpi : Icm45688 F :=
  resetAttitude
    { zero with
      accelFsrG := 16.0
      gyroFsrDps := 1000.0
      filterDtS := 1.0 / 200.0
      filterAlpha := 0.98
      attitudeMode := .complementary
      stationaryGyroThresholdDps := 1.5
      stationaryAccelThresholdG := 0.08
      stationaryHoldSamples := 5
      gyroBiasAutoUpdate := false
      gyroBiasLearningRate := 0.0010
      gyroScaleX := 1.0
      gyroScaleY := 1.0
      gyroScaleZ := 1.0
      accelLpfCutoffHz := 0.0
      gyroLpfCutoffHz := 0.0
      accelTrustWindowG := 0.0
      accelRejectionThresholdSq := 0.0
      mahonyKp := 2.0
      mahonyKi := 0.0 }

/-- `ICM45688_MSPM0_SetFilter`. -/
def setFilter (dev : Icm45688 F) (dtS alpha : F) : Icm45688 F :=
  { dev with
    filterDtS := if dtS > 0.0 then dtS else dev.filterDtS
    filterAlpha := if alpha ≥ 0.0 ∧ alpha ≤ 1.0 then alpha else dev.filterAlpha }

/-- `ICM45688_MSPM0_SetSampleLowPass`. -/
def setSampleLowPass (dev : Icm45688 F) (accelCutoffHz gyroCutoffHz : F) : Icm45688 F :=
  { dev with
    accelLpfCutoffHz := if accelCutoffHz > 0.0 then accelCutoffHz else 0.0
    gyroLpfCutoffHz := if gyroCutoffHz > 0.0 then gyroCutoffHz else 0.0 }

/-- `ICM45688_MSPM0_ResetSampleLowPass`. -/
def resetSampleLowPass (dev : Icm45688 F) : Icm45688 F :=
  { dev with sampleLpfInitialized := false }

/-- `ICM45688_MSPM0_SetAttitudeMode`. -/
def setAttitudeMode (dev : Icm45688 F) (mode : AttitudeMode) : Icm45688 F :=
  let dev := if dev.attitudeMode ≠ mode ∧ mode = .mahony6Axis then quatFromEuler dev else dev
  { dev with attitudeMode := mode }

/-- `ICM45688_MSPM0_SetAccelTrustWindow`. -/
def setAccelTrustWindow (dev : Icm45688 F) (maxAccelErrorG : F) : Icm45688 F :=
  { dev with accelTrustWindowG := if maxAccelErrorG > 0.0 then maxAccelErrorG else 0.0 }

/-- `ICM45688_MSPM0_SetAccelRejection`. -/
def setAccelRejection (dev : Icm45688 F) (rejectionAngleDeg : F) : Icm45688 F :=
  if rejectionAngleDeg ≤ 0.0 then { dev with accelRejectionThresholdSq := 0.0 }
  else
    let rejectionAngleDeg := clampf rejectionAngleDeg 0.0 90.0
    let halfSine := 0.5 * sinf (rejectionAngleDeg * degToRad)
    { dev with accelRejectionThresholdSq := halfSine * halfSine }

/-- `ICM45688_MSPM0_SetMahonyGains`. -/
def setMahonyGains (dev : Icm45688 F) (kp ki : F) : Icm45688 F :=
  { dev with
    mahonyKp := if kp ≥ 0.0 then kp else dev.mahonyKp
    mahonyKi := if ki ≥ 0.0 then ki else dev.mahonyKi }

/-- `ICM45688_MSPM0_SetGyroBias`. -/
def setGyroBias (dev : Icm45688 F) (gxBiasDps gyBiasDps gzBiasDps : F) : Icm45688 F :=
  { dev with
    gyroBiasXDps := gxBiasDps
    gyroBiasYDps := gyBiasDps
    gyroBiasZDps := gzBiasDps
    gyroBiasStationarySamples := 0 }

/-- `ICM45688_MSPM0_SetGyroScale`: a scale that is not positive is ignored. -/
def setGyroScale (dev : Icm45688 F) (gxScale gyScale gzScale : F) : Icm45688 F :=
  { dev with
    gyroScaleX := if gxScale > 0.0 then gxScale else dev.gyroScaleX
    gyroScaleY := if gyScale > 0.0 then gyScale else dev.gyroScaleY
    gyroScaleZ := if gzScale > 0.0 then gzScale else dev.gyroScaleZ }

/-- `ICM45688_MSPM0_SetStationaryDetection`. -/
def setStationaryDetection (dev : Icm45688 F) (gyroThresholdDps accelThresholdG : F)
    (holdSamples : ℕ) : Icm45688 F :=
  { dev with
    stationaryGyroThresholdDps :=
      if gyroThresholdDps > 0.0 then gyroThresholdDps else dev.stationaryGyroThresholdDps
    stationaryAccelThresholdG :=
      if accelThresholdG ≥ 0.0 then accelThresholdG else dev.stationaryAccelThresholdG
    stationaryHoldSamples := if holdSamples = 0 then 1 else holdSamples
    stationary := false
    stationarySampleCount := 0
    gyroBiasStationarySamples := 0 }

/-- `ICM45688_MSPM0_SetGyroBiasAutoUpdate`. -/
def setGyroBiasAutoUpdate (dev : Icm45688 F) (enable : Bool) (learningRate : F) : Icm45688 F :=
  { dev with
    gyroBiasAutoUpdate := enable
    gyroBiasStationarySamples := 0
    gyroBiasLearningRate :=
      if learningRate ≥ 0.0 ∧ learningRate ≤ 1.0 then learningRate
      else dev.gyroBiasLearningRate }

/-- `ICM45688_MSPM0_Begin`, by the status it ends with. -/
def begin (dev : Icm45688 F) (status : ℤ) : Icm45688 F :=
  let dev := clearMeasurements { dev with ready := false }
  if status = invImuOk then { dev with ready := true } else dev

/-- The conversion of one sample and what follows from it, `ICM45688_MSPM0_Update`
after the register read. -/
def processSample (dev : Icm45688 F) (raw : InvImuSensorData) : Icm45688 F :=
  let rawAxG : F := (raw.accelX : F) * dev.accelFsrG / rawMax
  let rawAyG : F := (raw.accelY : F) * dev.accelFsrG / rawMax
  let rawAzG : F := (raw.accelZ : F) * dev.accelFsrG / rawMax
  let rawGxDps : F := (raw.gyroX : F) * dev.gyroFsrDps / rawMax
  let rawGyDps : F := (raw.gyroY : F) * dev.gyroFsrDps / rawMax
  let rawGzDps : F := (raw.gyroZ : F) * dev.gyroFsrDps / rawMax
  let dev := dev.applySampleLowpass rawAxG rawAyG rawAzG
    ((rawGxDps - dev.gyroBiasXDps) * dev.gyroScaleX)
    ((rawGyDps - dev.gyroBiasYDps) * dev.gyroScaleY)
    ((rawGzDps - dev.gyroBiasZDps) * dev.gyroScaleZ)
  let dev := updateStationaryState { dev with tempC := 25.0 + (raw.temp : F) / 128.0 }
  let oldBiasXDps := dev.gyroBiasXDps
  let oldBiasYDps := dev.gyroBiasYDps
  let oldBiasZDps := dev.gyroBiasZDps
  let dev := dev.updateAutoGyroBias rawGxDps rawGyDps rawGzDps
  let dev :=
    { dev with
      gxDps := dev.gxDps - (dev.gyroBiasXDps - oldBiasXDps) * dev.gyroScaleX
      gyDps := dev.gyDps - (dev.gyroBiasYDps - oldBiasYDps) * dev.gyroScaleY
      gzDps := dev.gzDps - (dev.gyroBiasZDps - oldBiasZDps) * dev.gyroScaleZ }
  match dev.attitudeMode with
  | .mahony6Axis => updateMahonyAttitude dev
  | .complementary => updateComplementaryAttitude dev

/-- `ICM45688_MSPM0_Update`, by the status of the register read and its data. -/
def update (dev : Icm45688 F) (status : ℤ) (raw : InvImuSensorData) : ℤ × Icm45688 F :=
  if !dev.ready then (invImuError, dev)
  else if status ≠ invImuOk then (status, dev)
  else (invImuOk, dev.processSample raw)

/-! ### The fields that a sample writes -/

section Writes

variable (dev : Icm45688 F)

theorem applySampleLowpass_writes (rawAxG rawAyG rawAzG : F)
    (correctedGxDps correctedGyDps correctedGzDps : F) :
    ∃ axG ayG azG gxDps gyDps gzDps sampleLpfInitialized,
      dev.applySampleLowpass rawAxG rawAyG rawAzG correctedGxDps correctedGyDps correctedGzDps =
        { dev with axG, ayG, azG, gxDps, gyDps, gzDps, sampleLpfInitialized } := by
  rw [applySampleLowpass]
  split <;> exact ⟨_, _, _, _, _, _, _, rfl⟩

theorem updateAutoGyroBias_writes (rawGxDps rawGyDps rawGzDps : F) :
    ∃ gyroBiasStationarySamples gyroBiasXDps gyroBiasYDps gyroBiasZDps,
      dev.updateAutoGyroBias rawGxDps rawGyDps rawGzDps =
        { dev with gyroBiasStationarySamples, gyroBiasXDps, gyroBiasYDps, gyroBiasZDps } := by
  rw [updateAutoGyroBias]
  dsimp only
  split_ifs <;> exact ⟨_, _, _, _, rfl⟩

theorem updateComplementaryAttitude_writes :
    ∃ pitchDeg rollDeg yawDeg,
      dev.updateComplementaryAttitude = { dev with pitchDeg, rollDeg, yawDeg } := by
  rw [updateComplementaryAttitude]
  cases dev.accelIsTrusted <;> dsimp only <;> split_ifs <;> exact ⟨_, _, _, rfl⟩

theorem mahonyRates_writes :
    ∃ mahonyIntegralX mahonyIntegralY mahonyIntegralZ,
      dev.mahonyRates.1 =
        { dev with mahonyIntegralX, mahonyIntegralY, mahonyIntegralZ } := by
  rw [mahonyRates]
  cases dev.accelIsTrusted with
  | none => exact ⟨_, _, _, rfl⟩
  | some accelNorm =>
      dsimp only
      split_ifs <;> exact ⟨_, _, _, rfl⟩

theorem rotateQuat_writes (gx gy gz : F) :
    ∃ pitchDeg rollDeg yawDeg quatW quatX quatY quatZ mahonyIntegralX mahonyIntegralY
        mahonyIntegralZ,
      dev.rotateQuat gx gy gz =
        { dev with
          pitchDeg, rollDeg, yawDeg, quatW, quatX, quatY, quatZ, mahonyIntegralX, mahonyIntegralY
          mahonyIntegralZ } := by
  rw [rotateQuat]
  dsimp only
  split_ifs <;> exact ⟨_, _, _, _, _, _, _, _, _, _, rfl⟩

/-- The attitude update writes the attitude. -/
theorem updateMahonyAttitude_writes :
    ∃ pitchDeg rollDeg yawDeg quatW quatX quatY quatZ mahonyIntegralX mahonyIntegralY
        mahonyIntegralZ,
      dev.updateMahonyAttitude =
        { dev with
          pitchDeg, rollDeg, yawDeg, quatW, quatX, quatY, quatZ, mahonyIntegralX, mahonyIntegralY
          mahonyIntegralZ } := by
  obtain ⟨_, _, _, hrates⟩ := dev.mahonyRates_writes
  rw [updateMahonyAttitude]
  dsimp only
  rw [hrates]
  split_ifs
  · obtain ⟨_, _, _, _, _, _, _, _, _, _, hrotated⟩ := rotateQuat_writes
      { dev with mahonyIntegralX := _, mahonyIntegralY := _, mahonyIntegralZ := 0.0 }
      dev.mahonyRates.2.1 dev.mahonyRates.2.2.1 0.0
    rw [hrotated]
    exact ⟨_, _, _, _, _, _, _, _, _, _, rfl⟩
  · obtain ⟨_, _, _, _, _, _, _, _, _, _, hrotated⟩ := rotateQuat_writes
      { dev with mahonyIntegralX := _, mahonyIntegralY := _, mahonyIntegralZ := _ }
      dev.mahonyRates.2.1 dev.mahonyRates.2.2.1 dev.mahonyRates.2.2.2
    rw [hrotated]
    exact ⟨_, _, _, _, _, _, _, _, _, _, rfl⟩

end Writes

/-! ### The Z scale -/

section GyroScaleZ

variable (dev : Icm45688 F)

@[simp] theorem gyroScaleZ_resetAttitude : dev.resetAttitude.gyroScaleZ = dev.gyroScaleZ := rfl

omit [CMath F] in
@[simp] theorem gyroScaleZ_resetSampleLowPass :
    dev.resetSampleLowPass.gyroScaleZ = dev.gyroScaleZ := rfl

@[simp] theorem gyroScaleZ_setGyroScale (x y z : F) :
    (dev.setGyroScale x y z).gyroScaleZ = if z > 0.0 then z else dev.gyroScaleZ := rfl

@[simp] theorem gyroScaleZ_applySampleLowpass (ax ay az gx gy gz : F) :
    (dev.applySampleLowpass ax ay az gx gy gz).gyroScaleZ = dev.gyroScaleZ := by
  obtain ⟨_, _, _, _, _, _, _, hwrites⟩ := dev.applySampleLowpass_writes ax ay az gx gy gz
  rw [hwrites]

@[simp] theorem gyroScaleZ_updateStationaryState :
    dev.updateStationaryState.gyroScaleZ = dev.gyroScaleZ := rfl

@[simp] theorem gyroScaleZ_updateAutoGyroBias (gx gy gz : F) :
    (dev.updateAutoGyroBias gx gy gz).gyroScaleZ = dev.gyroScaleZ := by
  obtain ⟨_, _, _, _, hwrites⟩ := dev.updateAutoGyroBias_writes gx gy gz
  rw [hwrites]

@[simp] theorem gyroScaleZ_updateComplementaryAttitude :
    dev.updateComplementaryAttitude.gyroScaleZ = dev.gyroScaleZ := by
  obtain ⟨_, _, _, hwrites⟩ := dev.updateComplementaryAttitude_writes
  rw [hwrites]

@[simp] theorem gyroScaleZ_updateMahonyAttitude :
    dev.updateMahonyAttitude.gyroScaleZ = dev.gyroScaleZ := by
  obtain ⟨_, _, _, _, _, _, _, _, _, _, hwrites⟩ := dev.updateMahonyAttitude_writes
  rw [hwrites]

/-- A sample changes measurements, bias and attitude, never the scale. -/
@[simp] theorem gyroScaleZ_update (status : ℤ) (raw : InvImuSensorData) :
    (dev.update status raw).2.gyroScaleZ = dev.gyroScaleZ := by
  rw [update]
  split_ifs
  · rfl
  · rfl
  · rw [processSample]
    dsimp only
    split <;> simp

end GyroScaleZ

end Icm45688

end NuedcFirmware.Modules
