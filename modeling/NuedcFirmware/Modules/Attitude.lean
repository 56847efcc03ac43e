import NuedcFirmware.Lib.AxisRotation
import NuedcFirmware.Lib.Run
import NuedcFirmware.Modules.Icm45688

/-!
The orientation of the attitude filter, in exact arithmetic.

The device keeps it as a quaternion, which every operation leaves at unit norm: most
operations do not touch it, two write the quaternion of the Euler angles, and a sample
turns it by the truncated series of the rates and normalises it. The branch for a norm
too small to divide by is never taken, and no other divisor of a sample is zero.
-/

namespace NuedcFirmware.Modules.Attitude

open NuedcFirmware.Lib Icm45688
open Quaternion (normSq normSq_def')

/-- The operations that write a device. The ones that talk to the sensor are given by
what the driver reports. -/
inductive Op (F : Type*)
  | setFilter (dtS alpha : F)
  | setSampleLowPass (accelCutoffHz gyroCutoffHz : F)
  | resetSampleLowPass
  | setAttitudeMode (mode : AttitudeMode)
  | setAccelTrustWindow (maxAccelErrorG : F)
  | setAccelRejection (rejectionAngleDeg : F)
  | setMahonyGains (kp ki : F)
  | resetAttitude
  | setGyroBias (gxBiasDps gyBiasDps gzBiasDps : F)
  | setGyroScale (gxScale gyScale gzScale : F)
  | setStationaryDetection (gyroThresholdDps accelThresholdG : F) (holdSamples : ℕ)
  | setGyroBiasAutoUpdate (enable : Bool) (learningRate : F)
  | begin (status : ℤ)
  | update (status : ℤ) (raw : InvImuSensorData)

section Stages

variable {F : Type*} [CMath F] (dev : Icm45688 F)

def step : Op F → Icm45688 F
  | .setFilter dtS alpha => dev.setFilter dtS alpha
  | .setSampleLowPass accelCutoffHz gyroCutoffHz =>
      dev.setSampleLowPass accelCutoffHz gyroCutoffHz
  | .resetSampleLowPass => dev.resetSampleLowPass
  | .setAttitudeMode mode => dev.setAttitudeMode mode
  | .setAccelTrustWindow maxAccelErrorG => dev.setAccelTrustWindow maxAccelErrorG
  | .setAccelRejection rejectionAngleDeg => dev.setAccelRejection rejectionAngleDeg
  | .setMahonyGains kp ki => dev.setMahonyGains kp ki
  | .resetAttitude => dev.resetAttitude
  | .setGyroBias gxBiasDps gyBiasDps gzBiasDps => dev.setGyroBias gxBiasDps gyBiasDps gzBiasDps
  | .setGyroScale gxScale gyScale gzScale => dev.setGyroScale gxScale gyScale gzScale
  | .setStationaryDetection gyroThresholdDps accelThresholdG holdSamples =>
      dev.setStationaryDetection gyroThresholdDps accelThresholdG holdSamples
  | .setGyroBiasAutoUpdate enable learningRate =>
      dev.setGyroBiasAutoUpdate enable learningRate
  | .begin status => dev.begin status
  | .update status raw => (dev.update status raw).2

/-- The device as the attitude update of a sample finds it. -/
def sampled (raw : InvImuSensorData) : Icm45688 F :=
  let rawGxDps : F := (raw.gyroX : F) * dev.gyroFsrDps / rawMax
  let rawGyDps : F := (raw.gyroY : F) * dev.gyroFsrDps / rawMax
  let rawGzDps : F := (raw.gyroZ : F) * dev.gyroFsrDps / rawMax
  let dev := dev.applySampleLowpass ((raw.accelX : F) * dev.accelFsrG / rawMax)
    ((raw.accelY : F) * dev.accelFsrG / rawMax) ((raw.accelZ : F) * dev.accelFsrG / rawMax)
    ((rawGxDps - dev.gyroBiasXDps) * dev.gyroScaleX)
    ((rawGyDps - dev.gyroBiasYDps) * dev.gyroScaleY)
    ((rawGzDps - dev.gyroBiasZDps) * dev.gyroScaleZ)
  let still := updateStationaryState { dev with tempC := 25.0 + (raw.temp : F) / 128.0 }
  let dev := still.updateAutoGyroBias rawGxDps rawGyDps rawGzDps
  { dev with
    gxDps := dev.gxDps - (dev.gyroBiasXDps - still.gyroBiasXDps) * dev.gyroScaleX
    gyDps := dev.gyDps - (dev.gyroBiasYDps - still.gyroBiasYDps) * dev.gyroScaleY
    gzDps := dev.gzDps - (dev.gyroBiasZDps - still.gyroBiasZDps) * dev.gyroScaleZ }

theorem processSample_eq (raw : InvImuSensorData) :
    dev.processSample raw =
      match (sampled dev raw).attitudeMode with
      | .mahony6Axis => updateMahonyAttitude (sampled dev raw)
      | .complementary => updateComplementaryAttitude (sampled dev raw) := rfl

/-- The device and the rates by which `update_mahony_attitude` turns its quaternion. -/
def lockedRates : Icm45688 F × F × F × F :=
  let (rated, gx, gy, gz) := dev.mahonyRates
  if dev.yawShouldLock then ({ rated with mahonyIntegralZ := 0.0 }, gx, gy, 0.0)
  else (rated, gx, gy, gz)

/-- The quaternion turned by the rates, before it is normalised. -/
def turned (gx gy gz : F) : Icm45688 F :=
  let halfDt := 0.5 * dev.filterDtS
  let halfAngleSq := (gx * gx + gy * gy + gz * gz) * halfDt * halfDt
  let halfAnglePow4 := halfAngleSq * halfAngleSq
  let deltaW := 1.0 - 0.5 * halfAngleSq + halfAnglePow4 * (1.0 / 24.0)
  let vectorScale :=
    halfDt * (1.0 - halfAngleSq * (1.0 / 6.0) + halfAnglePow4 * (1.0 / 120.0))
  let deltaX := gx * vectorScale
  let deltaY := gy * vectorScale
  let deltaZ := gz * vectorScale
  { dev with
    quatW := dev.quatW * deltaW - dev.quatX * deltaX - dev.quatY * deltaY - dev.quatZ * deltaZ
    quatX := dev.quatW * deltaX + dev.quatX * deltaW + dev.quatY * deltaZ - dev.quatZ * deltaY
    quatY := dev.quatW * deltaY - dev.quatX * deltaZ + dev.quatY * deltaW + dev.quatZ * deltaX
    quatZ := dev.quatW * deltaZ + dev.quatX * deltaY - dev.quatY * deltaX + dev.quatZ * deltaW }

/-- `norm_sq`. -/
def quatNormSq : F :=
  dev.quatW * dev.quatW + dev.quatX * dev.quatX + dev.quatY * dev.quatY + dev.quatZ * dev.quatZ

def scaleQuat (factor : F) : Icm45688 F :=
  { dev with
    quatW := dev.quatW * factor
    quatX := dev.quatX * factor
    quatY := dev.quatY * factor
    quatZ := dev.quatZ * factor }

theorem rotateQuat_eq (gx gy gz : F) :
    dev.rotateQuat gx gy gz =
      if quatNormSq (turned dev gx gy gz) > minNormSq then
        scaleQuat (turned dev gx gy gz) (1.0 / sqrtf (quatNormSq (turned dev gx gy gz)))
      else resetAttitude (turned dev gx gy gz) := rfl

/-- The quaternion that `update_mahony_attitude` normalises. -/
def mahonyTurned : Icm45688 F :=
  let (rated, gx, gy, gz) := lockedRates dev
  turned rated gx gy gz

/-- `update_mahony_attitude` takes its fallback branch. -/
def FallsBack : Prop := ¬ quatNormSq (mahonyTurned dev) > minNormSq

/-- The divisors of the divisions that a sample comes to. -/
inductive Divides (raw : InvImuSensorData) : F → Prop
  | conversion : Divides raw rawMax
  | temperature : Divides raw 128.0
  | lowpass {cutoffHz : F} (hinitialized : dev.sampleLpfInitialized = true)
      (hcutoff : cutoffHz = dev.accelLpfCutoffHz ∨ cutoffHz = dev.gyroLpfCutoffHz)
      (hpositive : ¬ (cutoffHz ≤ 0.0 ∨ dev.filterDtS ≤ 0.0)) :
      Divides raw (1.0 + twoPi * cutoffHz * dev.filterDtS)
  | gravity {accelNorm : F} (hmode : (sampled dev raw).attitudeMode = .mahony6Axis)
      (htrusted : (sampled dev raw).accelIsTrusted = some accelNorm) : Divides raw accelNorm
  | series {factor : F} (hmode : (sampled dev raw).attitudeMode = .mahony6Axis)
      (hfactor : factor ∈ [(24.0 : F), 6.0, 120.0]) : Divides raw factor
  | norm (hmode : (sampled dev raw).attitudeMode = .mahony6Axis)
      (hnorm : ¬ FallsBack (sampled dev raw)) :
      Divides raw (sqrtf (quatNormSq (mahonyTurned (sampled dev raw))))

end Stages

/-! ### The quaternion -/

noncomputable def quat (dev : Icm45688 ℝ) : Quaternion ℝ :=
  ⟨dev.quatW, dev.quatX, dev.quatY, dev.quatZ⟩

@[simp] theorem re_quat (dev : Icm45688 ℝ) : (quat dev).re = dev.quatW := rfl
@[simp] theorem imI_quat (dev : Icm45688 ℝ) : (quat dev).imI = dev.quatX := rfl
@[simp] theorem imJ_quat (dev : Icm45688 ℝ) : (quat dev).imJ = dev.quatY := rfl
@[simp] theorem imK_quat (dev : Icm45688 ℝ) : (quat dev).imK = dev.quatZ := rfl

theorem quatNormSq_eq (dev : Icm45688 ℝ) : quatNormSq dev = normSq (quat dev) := by
  rw [normSq_def', quatNormSq, quat]
  ring

theorem quat_scaleQuat (dev : Icm45688 ℝ) (factor : ℝ) :
    quat (scaleQuat dev factor) = factor • quat dev := by
  ext <;> simp [scaleQuat, mul_comm]

/-- The quaternion of the Euler angles, the device's pitch being the first of them. -/
theorem quat_quatFromEuler (dev : Icm45688 ℝ) :
    quat dev.quatFromEuler =
      ofHalfAngles (dev.pitchDeg * degToRad * 0.5) (dev.rollDeg * degToRad * 0.5)
        (dev.yawDeg * degToRad * 0.5) := by
  rw [ofHalfAngles_eq]
  rfl

theorem quat_turned (dev : Icm45688 ℝ) (gx gy gz : ℝ) :
    quat (turned dev gx gy gz) =
      quat dev * expSeries (gx * (0.5 * dev.filterDtS)) (gy * (0.5 * dev.filterDtS))
        (gz * (0.5 * dev.filterDtS)) := by
  ext <;>
    simp only [Quaternion.re_mul, Quaternion.imI_mul, Quaternion.imJ_mul, Quaternion.imK_mul] <;>
    simp only [turned, expSeries, cosSeries, sincSeries, re_quat, imI_quat, imJ_quat, imK_quat] <;>
    norm_num <;> ring

/-! ### Unit norm -/

def UnitQuat (dev : Icm45688 ℝ) : Prop := normSq (quat dev) = 1

/-- Turned by any rates, a unit quaternion keeps a norm that can be divided by. -/
theorem quatNormSq_turned {dev : Icm45688 ℝ} (h : UnitQuat dev) (gx gy gz : ℝ) :
    quatNormSq (turned dev gx gy gz) > minNormSq := by
  have hseries := normSq_expSeries_ge (gx * (0.5 * dev.filterDtS)) (gy * (0.5 * dev.filterDtS))
    (gz * (0.5 * dev.filterDtS))
  rw [quatNormSq_eq, quat_turned, map_mul, h, one_mul, minNormSq]
  refine lt_of_lt_of_le ?_ hseries
  norm_num

theorem unitQuat_rotateQuat {dev : Icm45688 ℝ} (h : UnitQuat dev) (gx gy gz : ℝ) :
    UnitQuat (dev.rotateQuat gx gy gz) := by
  have hnorm := quatNormSq_turned h gx gy gz
  have hpos : 0 < normSq (quat (turned dev gx gy gz)) := by
    rw [← quatNormSq_eq]
    refine lt_trans ?_ hnorm
    norm_num [minNormSq]
  have hone : (1.0 : ℝ) = 1 := by norm_num
  rw [rotateQuat_eq, if_pos hnorm, UnitQuat, quat_scaleQuat, quatNormSq_eq, hone]
  exact normSq_normalize hpos

theorem unitQuat_quatFromEuler (dev : Icm45688 ℝ) : UnitQuat dev.quatFromEuler := by
  rw [UnitQuat, quat_quatFromEuler]
  exact normSq_ofHalfAngles _ _ _

theorem unitQuat_resetAttitude (dev : Icm45688 ℝ) : UnitQuat dev.resetAttitude := by
  rw [UnitQuat, normSq_def']
  norm_num [quat, resetAttitude]

/-! ### What a sample does to the quaternion -/

theorem quat_applySampleLowpass (dev : Icm45688 ℝ) (ax ay az gx gy gz : ℝ) :
    quat (dev.applySampleLowpass ax ay az gx gy gz) = quat dev := by
  obtain ⟨_, _, _, _, _, _, _, hwrites⟩ := dev.applySampleLowpass_writes ax ay az gx gy gz
  rw [hwrites, quat, quat]

theorem quat_updateAutoGyroBias (dev : Icm45688 ℝ) (gx gy gz : ℝ) :
    quat (dev.updateAutoGyroBias gx gy gz) = quat dev := by
  obtain ⟨_, _, _, _, hwrites⟩ := dev.updateAutoGyroBias_writes gx gy gz
  rw [hwrites, quat, quat]

theorem quat_sampled (dev : Icm45688 ℝ) (raw : InvImuSensorData) :
    quat (sampled dev raw) = quat dev :=
  (quat_updateAutoGyroBias _ _ _ _).trans (quat_applySampleLowpass _ _ _ _ _ _ _)

theorem quat_updateComplementaryAttitude (dev : Icm45688 ℝ) :
    quat dev.updateComplementaryAttitude = quat dev := by
  obtain ⟨_, _, _, hwrites⟩ := dev.updateComplementaryAttitude_writes
  rw [hwrites, quat, quat]

theorem quat_mahonyRates (dev : Icm45688 ℝ) : quat dev.mahonyRates.1 = quat dev := by
  obtain ⟨_, _, _, hwrites⟩ := dev.mahonyRates_writes
  rw [hwrites, quat, quat]

theorem quat_lockedRates (dev : Icm45688 ℝ) : quat (lockedRates dev).1 = quat dev := by
  rw [lockedRates]
  dsimp only
  split_ifs <;> exact quat_mahonyRates dev

theorem updateMahonyAttitude_eq (dev : Icm45688 ℝ) :
    dev.updateMahonyAttitude =
      let (rated, gx, gy, gz) := lockedRates dev
      let rotated := eulerFromQuat (rated.rotateQuat gx gy gz)
      if dev.yawShouldLock then quatFromEuler { rotated with yawDeg := dev.yawDeg }
      else rotated := by
  rw [updateMahonyAttitude, lockedRates]
  cases dev.yawShouldLock <;> rfl

theorem unitQuat_updateMahonyAttitude {dev : Icm45688 ℝ} (h : UnitQuat dev) :
    UnitQuat dev.updateMahonyAttitude := by
  have hrated : UnitQuat (lockedRates dev).1 := by
    rw [UnitQuat, quat_lockedRates]
    exact h
  rw [updateMahonyAttitude_eq]
  dsimp only
  split_ifs
  · exact unitQuat_quatFromEuler _
  · exact unitQuat_rotateQuat hrated _ _ _

theorem unitQuat_processSample {dev : Icm45688 ℝ} (h : UnitQuat dev) (raw : InvImuSensorData) :
    UnitQuat (dev.processSample raw) := by
  have hsampled : UnitQuat (sampled dev raw) := by
    rw [UnitQuat, quat_sampled]
    exact h
  rw [processSample_eq]
  cases (sampled dev raw).attitudeMode with
  | mahony6Axis => exact unitQuat_updateMahonyAttitude hsampled
  | complementary =>
      rw [UnitQuat, quat_updateComplementaryAttitude]
      exact hsampled

/-! ### Every operation -/

theorem unitQuat_step (dev : Icm45688 ℝ) (op : Op ℝ) (h : UnitQuat dev) :
    UnitQuat (step dev op) := by
  cases op with
  | setAttitudeMode mode =>
      rw [step, setAttitudeMode]
      split_ifs
      · exact unitQuat_quatFromEuler dev
      · exact h
  | setAccelRejection rejectionAngleDeg =>
      rw [step, setAccelRejection]
      split_ifs <;> exact h
  | resetAttitude => exact unitQuat_resetAttitude dev
  | begin status =>
      have hclear : UnitQuat (clearMeasurements { dev with ready := false }) :=
        unitQuat_resetAttitude _
      rw [step, begin]
      split_ifs <;> exact hclear
  | update status raw =>
      rw [step, update]
      split_ifs
      · exact h
      · exact h
      · exact unitQuat_processSample h raw
  | _ => exact h

/-- A sample that the device takes is not lost to the fallback branch, and divides by
nothing that is zero. -/
def Sound (dev : Icm45688 ℝ) (op : Op ℝ) : Prop :=
  ∀ raw, op = .update invImuOk raw → dev.ready = true →
    ((sampled dev raw).attitudeMode = .mahony6Axis → ¬ FallsBack (sampled dev raw)) ∧
      ∀ divisor, Divides dev raw divisor → divisor ≠ 0

theorem not_fallsBack {dev : Icm45688 ℝ} (h : UnitQuat dev) : ¬ FallsBack dev := by
  have hrated : UnitQuat (lockedRates dev).1 := by
    rw [UnitQuat, quat_lockedRates]
    exact h
  exact not_not_intro (quatNormSq_turned hrated _ _ _)

theorem sqrt_ne_zero_of_gt {x : ℝ} (h : x > minNormSq) : sqrtf x ≠ 0 := by
  refine (Real.sqrt_pos.mpr (lt_trans ?_ h)).ne'
  norm_num [minNormSq]

/-- A trusted acceleration is no zero vector. -/
theorem accelNorm_ne_zero {dev : Icm45688 ℝ} {accelNorm : ℝ}
    (h : dev.accelIsTrusted = some accelNorm) : accelNorm ≠ 0 := by
  rw [accelIsTrusted] at h
  dsimp only at h
  split_ifs at h with hzero
  · obtain rfl := Option.some.inj h
    exact sqrt_ne_zero_of_gt (not_le.mp hzero)
  · obtain rfl := Option.some.inj h
    exact sqrt_ne_zero_of_gt (not_le.mp hzero)

theorem sound_of_unitQuat (dev : Icm45688 ℝ) (op : Op ℝ) (h : UnitQuat dev) : Sound dev op := by
  rintro raw - -
  have hsampled : UnitQuat (sampled dev raw) := by
    rw [UnitQuat, quat_sampled]
    exact h
  refine ⟨fun _ => not_fallsBack hsampled, ?_⟩
  intro divisor hdivides
  cases hdivides with
  | conversion => norm_num [rawMax]
  | temperature => norm_num
  | lowpass hinitialized hcutoff hpositive =>
      norm_num [twoPi] at hpositive ⊢
      obtain ⟨hcutoff, hdt⟩ := hpositive
      positivity
  | gravity hmode htrusted => exact accelNorm_ne_zero htrusted
  | series hmode hfactor =>
      simp only [List.mem_cons, List.not_mem_nil, or_false] at hfactor
      rcases hfactor with rfl | rfl | rfl <;> norm_num
  | norm hmode hnorm => exact sqrt_ne_zero_of_gt (not_not.mp hnorm)

/-- Every run of operations on a device, in exact arithmetic: the quaternion has unit
norm in every state, and every sample is sound. -/
theorem attitude_run (run : List (Op ℝ)) :
    EachState step UnitQuat initHandleSpi run ∧ EachStep step Sound initHandleSpi run := by
  have hinit : UnitQuat initHandleSpi := unitQuat_resetAttitude _
  refine ⟨?_, EachStep.of_invariant unitQuat_step sound_of_unitQuat hinit⟩
  rintro pre post rfl
  exact exec_invariant unitQuat_step hinit pre

end NuedcFirmware.Modules.Attitude
