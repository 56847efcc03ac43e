import Mathlib.Analysis.SpecialFunctions.Sqrt
import NuedcFirmware.Lib.Centroid
import NuedcFirmware.Lib.Statistics
import NuedcFirmware.Modules.GyroBias
import NuedcFirmware.Modules.ImuService

/-!
The static calibration of the gyro, `calibrate_gyro_bias` of `imu_service.c`.

An attempt takes a window of samples and sums up the rates of the device and their squares,
and attempts go on until a window is quiet. With the low-pass of the gyro off, an attempt
sets the device up such that its rates are the raw rates of the samples (`Bare`). The sums
are then the plain sums of the window, the bias is its mean, and what is compared with the
limit is its standard deviation.
-/

namespace NuedcFirmware.Modules

open NuedcFirmware.Lib

section Definitions

variable {F : Type*} [CMath F]

/-- The variable `variance` of `sample_stddev`, before it is clamped. -/
def rawVariance (sum sumSq : F) (count : ℕ) : F :=
  let mean := sum / ((count : ℤ) : F)
  sumSq / ((count : ℤ) : F) - mean * mean

/-- `sample_stddev`. -/
def sampleStddev (sum sumSq : F) (count : ℕ) : F :=
  if count = 0 then 0.0
  else
    let variance := rawVariance sum sumSq count
    let variance := if variance < 0.0 then 0.0 else variance
    sqrtf variance

/-- The sums of `calibrate_gyro_bias`. -/
structure GyroSums (F : Type*) where
  gxSum : F
  gySum : F
  gzSum : F
  gxSqSum : F
  gySqSum : F
  gzSqSum : F

def GyroSums.zero : GyroSums F where
  gxSum := 0.0
  gySum := 0.0
  gzSum := 0.0
  gxSqSum := 0.0
  gySqSum := 0.0
  gzSqSum := 0.0

/-- The sums with the rates of the device added. -/
def GyroSums.add (sums : GyroSums F) (imu : Icm45688 F) : GyroSums F where
  gxSum := sums.gxSum + imu.gxDps
  gySum := sums.gySum + imu.gyDps
  gzSum := sums.gzSum + imu.gzDps
  gxSqSum := sums.gxSqSum + imu.gxDps * imu.gxDps
  gySqSum := sums.gySqSum + imu.gyDps * imu.gyDps
  gzSqSum := sums.gzSqSum + imu.gzDps * imu.gzDps

/-- The settings that an attempt of `calibrate_gyro_bias` begins with. -/
def beginGyroAttempt (imu : Icm45688 F) : Icm45688 F :=
  imu.setGyroScale 1.0 1.0 1.0
    |>.setGyroBias 0.0 0.0 0.0
    |>.setGyroBiasAutoUpdate false 0.0
    |>.resetSampleLowPass
    |>.resetAttitude

/-- The sample loop of an attempt from round `i` on, with `remaining` rounds left. The
`reads` are what the calls of `wait_and_update_imu` come to. -/
def gyroSampleLoop (profile : ImuCalibratedProfile F) (reads : ℕ → ImuRead) (i : ℕ) :
    ℕ → Icm45688 F → GyroSums F → ℤ × Icm45688 F × GyroSums F
  | 0, imu, sums => (invImuOk, imu, sums)
  | remaining + 1, imu, sums =>
      let (status, imu) := waitAndUpdateImu imu (reads i)
      if status ≠ invImuOk then (status, imu, sums)
      else
        let sums := if i < profile.gyroCalWarmupSamples then sums else sums.add imu
        gyroSampleLoop profile reads (i + 1) remaining imu sums

/-- The samples that an attempt takes. -/
def ImuCalibratedProfile.gyroWindow (profile : ImuCalibratedProfile F) : ℕ :=
  profile.gyroCalWarmupSamples + profile.gyroCalSamples

/-- An attempt up to the end of its sample loop. -/
def gyroAttempt (profile : ImuCalibratedProfile F) (reads : ℕ → ImuRead) (imu : Icm45688 F) :
    ℤ × Icm45688 F × GyroSums F :=
  gyroSampleLoop profile reads 0 profile.gyroWindow (beginGyroAttempt imu) GyroSums.zero

/-- An axis of the window is not quiet. -/
def GyroSums.noisy (profile : ImuCalibratedProfile F) (sums : GyroSums F) : Bool :=
  sampleStddev sums.gxSum sums.gxSqSum profile.gyroCalSamples > profile.gyroCalStddevLimitDps ||
    sampleStddev sums.gySum sums.gySqSum profile.gyroCalSamples > profile.gyroCalStddevLimitDps ||
    sampleStddev sums.gzSum sums.gzSqSum profile.gyroCalSamples > profile.gyroCalStddevLimitDps

/-- `calibrate_gyro_bias` from the given attempt on, with the status that it returns. It is
followed for at most `fuel` attempts, as it goes on for as long as the windows are noisy. -/
def calibrateGyroBias (reads : ℕ → ImuRead) : ℕ → ℕ → Icm45688 F → Option (ℤ × Icm45688 F)
  | 0, _, _ => none
  | fuel + 1, attempt, imu =>
      let profile : ImuCalibratedProfile F := gImuCalibratedProfile
      let (status, imu, sums) :=
        gyroAttempt profile (fun i => reads (attempt * profile.gyroWindow + i)) imu
      if status ≠ invImuOk then some (status, imu)
      else if sums.noisy profile then calibrateGyroBias reads fuel (attempt + 1) imu
      else
        let count : F := ((profile.gyroCalSamples : ℤ) : F)
        some (invImuOk,
          finishGyroCalibration imu (sums.gxSum / count) (sums.gySum / count)
            (sums.gzSum / count))

end Definitions

namespace GyroCalibration

open Icm45688 GyroBias
open Attitude (sampled processSample_eq)

/-! ### The rates of an attempt -/

/-- The device passes the raw rates on: its low-pass for the gyro is off, and it corrects
nothing. -/
structure Bare (imu : Icm45688 ℝ) : Prop where
  cutoff : imu.gyroLpfCutoffHz ≤ 0
  bias : imu.gyroBiasXDps = 0 ∧ imu.gyroBiasYDps = 0 ∧ imu.gyroBiasZDps = 0
  scale : imu.gyroScaleX = 1 ∧ imu.gyroScaleY = 1 ∧ imu.gyroScaleZ = 1
  autoUpdate : imu.gyroBiasAutoUpdate = false

/-- What the samples of an attempt do not change. -/
structure SameSensor (imu imu' : Icm45688 ℝ) : Prop where
  ready : imu'.ready = imu.ready
  fsr : imu'.gyroFsrDps = imu.gyroFsrDps
  cutoff : imu'.gyroLpfCutoffHz = imu.gyroLpfCutoffHz

theorem SameSensor.trans {imu imu' imu'' : Icm45688 ℝ} (h : SameSensor imu imu')
    (h' : SameSensor imu' imu'') : SameSensor imu imu'' :=
  ⟨h'.ready.trans h.ready, h'.fsr.trans h.fsr, h'.cutoff.trans h.cutoff⟩

/-- The rates of the device are the raw rates of a sample. -/
structure ShowsRates (imu imu' : Icm45688 ℝ) (raw : InvImuSensorData) : Prop where
  x : imu'.gxDps = rawRate imu raw.gyroX
  y : imu'.gyDps = rawRate imu raw.gyroY
  z : imu'.gzDps = rawRate imu raw.gyroZ

theorem beginGyroAttempt_bare {imu : Icm45688 ℝ} (h : imu.gyroLpfCutoffHz ≤ 0) :
    Bare (beginGyroAttempt imu) ∧ SameSensor imu (beginGyroAttempt imu) := by
  have hzero : (0.0 : ℝ) = 0 := by norm_num
  have hone : (if (1.0 : ℝ) > 0.0 then (1.0 : ℝ) else imu.gyroScaleX) = 1 := by norm_num
  have hone' : (if (1.0 : ℝ) > 0.0 then (1.0 : ℝ) else imu.gyroScaleY) = 1 := by norm_num
  have hone'' : (if (1.0 : ℝ) > 0.0 then (1.0 : ℝ) else imu.gyroScaleZ) = 1 := by norm_num
  exact ⟨⟨h, ⟨hzero, hzero, hzero⟩, ⟨hone, hone', hone''⟩, rfl⟩, ⟨rfl, rfl, rfl⟩⟩

theorem lpfStep_of_off {cutoffHz : ℝ} (h : cutoffHz ≤ 0) (prev input dtS : ℝ) :
    lpfStep prev input cutoffHz dtS = input := by
  have hoff : cutoffHz ≤ 0.0 := by
    norm_num
    exact h
  rw [lpfStep, lpfAlpha, if_pos (Or.inl hoff)]
  norm_num

section Sample

variable {imu : Icm45688 ℝ} (h : Bare imu) (raw : InvImuSensorData)
include h

/-- The correction of a sample does nothing. -/
theorem corrected_eq (word : ℤ) :
    (rawRate imu word - imu.gyroBiasXDps) * imu.gyroScaleX = rawRate imu word ∧
      (rawRate imu word - imu.gyroBiasYDps) * imu.gyroScaleY = rawRate imu word ∧
      (rawRate imu word - imu.gyroBiasZDps) * imu.gyroScaleZ = rawRate imu word := by
  obtain ⟨hbx, hby, hbz⟩ := h.bias
  obtain ⟨hsx, hsy, hsz⟩ := h.scale
  rw [hbx, hby, hbz, hsx, hsy, hsz, sub_zero, mul_one]
  exact ⟨rfl, rfl, rfl⟩

theorem lowpassed_shows : ShowsRates imu (lowpassed imu raw) raw := by
  obtain ⟨hx, -, -⟩ := corrected_eq h raw.gyroX
  obtain ⟨-, hy, -⟩ := corrected_eq h raw.gyroY
  obtain ⟨-, -, hz⟩ := corrected_eq h raw.gyroZ
  rw [lowpassed, hx, hy, hz, applySampleLowpass]
  split_ifs
  · exact ⟨rfl, rfl, rfl⟩
  · exact ⟨lpfStep_of_off h.cutoff .., lpfStep_of_off h.cutoff .., lpfStep_of_off h.cutoff ..⟩

theorem learned_eq_detected : learned imu raw = detected imu raw := by
  have hauto : (detected imu raw).gyroBiasAutoUpdate = false := by
    have hlearner := congrArg Learner.autoUpdate (learner_detected imu raw)
    exact hlearner.trans h.autoUpdate
  rw [learned, updateAutoGyroBias, hauto]
  rfl

variable (imu) in
omit h in
/-- A low-pass writes none of the settings. -/
theorem lowpassed_settings :
    ∃ axG ayG azG gxDps gyDps gzDps tempC sampleLpfInitialized,
      lowpassed imu raw =
        { imu with axG, ayG, azG, gxDps, gyDps, gzDps, tempC, sampleLpfInitialized } := by
  rw [lowpassed]
  obtain ⟨_, _, _, _, _, _, _, hwrites⟩ := imu.applySampleLowpass_writes
    ((raw.accelX : ℝ) * imu.accelFsrG / rawMax) ((raw.accelY : ℝ) * imu.accelFsrG / rawMax)
    ((raw.accelZ : ℝ) * imu.accelFsrG / rawMax)
    ((rawRate imu raw.gyroX - imu.gyroBiasXDps) * imu.gyroScaleX)
    ((rawRate imu raw.gyroY - imu.gyroBiasYDps) * imu.gyroScaleY)
    ((rawRate imu raw.gyroZ - imu.gyroBiasZDps) * imu.gyroScaleZ)
  rw [hwrites]
  exact ⟨_, _, _, _, _, _, _, _, rfl⟩

theorem sampled_eq_detected : sampled imu raw = detected imu raw := by
  have hsampled : sampled imu raw =
      { learned imu raw with
        gxDps := (learned imu raw).gxDps -
          ((learned imu raw).gyroBiasXDps - (detected imu raw).gyroBiasXDps) *
            (learned imu raw).gyroScaleX
        gyDps := (learned imu raw).gyDps -
          ((learned imu raw).gyroBiasYDps - (detected imu raw).gyroBiasYDps) *
            (learned imu raw).gyroScaleY
        gzDps := (learned imu raw).gzDps -
          ((learned imu raw).gyroBiasZDps - (detected imu raw).gyroBiasZDps) *
            (learned imu raw).gyroScaleZ } := rfl
  rw [hsampled, learned_eq_detected h]
  simp only [sub_self, zero_mul, sub_zero]

theorem sampled_shows :
    ShowsRates imu (sampled imu raw) raw ∧ Bare (sampled imu raw) ∧
      SameSensor imu (sampled imu raw) := by
  have hshows := lowpassed_shows h raw
  obtain ⟨_, _, _, _, _, _, _, _, hwrites⟩ := lowpassed_settings imu raw
  rw [sampled_eq_detected h, detected]
  refine ⟨⟨hshows.x, hshows.y, hshows.z⟩, ?_⟩
  rw [hwrites]
  exact ⟨⟨h.cutoff, h.bias, h.scale, h.autoUpdate⟩, ⟨rfl, rfl, rfl⟩⟩

/-- A sample of an attempt shows its raw rates, and the device stays as it is set up. -/
theorem processSample_shows :
    ShowsRates imu (imu.processSample raw) raw ∧ Bare (imu.processSample raw) ∧
      SameSensor imu (imu.processSample raw) := by
  obtain ⟨hshows, hbare, hsensor⟩ := sampled_shows h raw
  rw [processSample_eq]
  cases (sampled imu raw).attitudeMode with
  | mahony6Axis =>
      obtain ⟨_, _, _, _, _, _, _, _, _, _, hwrites⟩ := (sampled imu raw).updateMahonyAttitude_writes
      dsimp only
      rw [hwrites]
      exact ⟨⟨hshows.x, hshows.y, hshows.z⟩,
        ⟨hbare.cutoff, hbare.bias, hbare.scale, hbare.autoUpdate⟩,
        ⟨hsensor.ready, hsensor.fsr, hsensor.cutoff⟩⟩
  | complementary =>
      obtain ⟨_, _, _, hwrites⟩ := (sampled imu raw).updateComplementaryAttitude_writes
      dsimp only
      rw [hwrites]
      exact ⟨⟨hshows.x, hshows.y, hshows.z⟩,
        ⟨hbare.cutoff, hbare.bias, hbare.scale, hbare.autoUpdate⟩,
        ⟨hsensor.ready, hsensor.fsr, hsensor.cutoff⟩⟩

end Sample

/-! ### The sums of a window -/

inductive Axis
  | x
  | y
  | z

namespace Axis

def rate : Axis → Icm45688 ℝ → ℝ
  | x, imu => imu.gxDps
  | y, imu => imu.gyDps
  | z, imu => imu.gzDps

def bias : Axis → Icm45688 ℝ → ℝ
  | x, imu => imu.gyroBiasXDps
  | y, imu => imu.gyroBiasYDps
  | z, imu => imu.gyroBiasZDps

def word : Axis → InvImuSensorData → ℤ
  | x, raw => raw.gyroX
  | y, raw => raw.gyroY
  | z, raw => raw.gyroZ

def sum : Axis → GyroSums ℝ → ℝ
  | x, sums => sums.gxSum
  | y, sums => sums.gySum
  | z, sums => sums.gzSum

def sqSum : Axis → GyroSums ℝ → ℝ
  | x, sums => sums.gxSqSum
  | y, sums => sums.gySqSum
  | z, sums => sums.gzSqSum

end Axis

theorem ShowsRates.rate {imu imu' : Icm45688 ℝ} {raw : InvImuSensorData}
    (h : ShowsRates imu imu' raw) (axis : Axis) : axis.rate imu' = rawRate imu (axis.word raw) := by
  cases axis with
  | x => exact h.x
  | y => exact h.y
  | z => exact h.z

theorem sum_add (axis : Axis) (sums : GyroSums ℝ) (imu : Icm45688 ℝ) :
    axis.sum (sums.add imu) = axis.sum sums + axis.rate imu ∧
      axis.sqSum (sums.add imu) = axis.sqSum sums + axis.rate imu * axis.rate imu := by
  cases axis <;> exact ⟨rfl, rfl⟩

theorem sum_zero (axis : Axis) : axis.sum .zero = 0 ∧ axis.sqSum .zero = 0 := by
  have hzero : (0.0 : ℝ) = 0 := by norm_num
  cases axis <;> exact ⟨hzero, hzero⟩

/-- The status of a wait for a sample. -/
def readStatus (ready : Bool) : ImuRead → ℤ
  | .error status _ => status
  | .data status _ => if ready then status else invImuError

/-- The data of a sample. -/
def readRaw : ImuRead → InvImuSensorData
  | .error _ _ => ⟨0, 0, 0, 0, 0, 0, 0⟩
  | .data _ raw => raw

theorem invImuError_ne : invImuError ≠ invImuOk := by decide

/-- A wait for a sample: it returns its status, and only a good one changes the device. -/
theorem waitAndUpdateImu_eq (imu : Icm45688 ℝ) (read : ImuRead) :
    waitAndUpdateImu imu read =
      (readStatus imu.ready read,
        if readStatus imu.ready read = invImuOk then imu.processSample (readRaw read) else imu) := by
  cases read with
  | error status hstatus => rw [waitAndUpdateImu, readStatus, if_neg hstatus]
  | data status raw =>
      rw [waitAndUpdateImu, readStatus, Icm45688.update]
      cases imu.ready with
      | false => simp [invImuError_ne]
      | true =>
          by_cases hstatus : status = invImuOk
          · simp [hstatus, readRaw]
          · simp [hstatus]

/-- The rate that a round of a sample loop sees. -/
noncomputable def roundRate (imu : Icm45688 ℝ) (reads : ℕ → ImuRead) (axis : Axis) (i : ℕ) : ℝ :=
  rawRate imu (axis.word (readRaw (reads i)))

theorem roundRate_congr {imu imu' : Icm45688 ℝ} (h : SameSensor imu imu') (reads : ℕ → ImuRead)
    (axis : Axis) (i : ℕ) : roundRate imu' reads axis i = roundRate imu reads axis i := by
  rw [roundRate, roundRate, rawRate, rawRate, h.fsr]

/-- The end of a sample loop: at the first failing sample, with its status, or after the last
one, with the rates of all rounds behind the warm-up summed up. -/
inductive LoopEnd (warmup : ℕ) (reads : ℕ → ImuRead) (i remaining : ℕ) (imu : Icm45688 ℝ)
    (sums : GyroSums ℝ) (imu' : Icm45688 ℝ) (sums' : GyroSums ℝ) : ℤ → Prop
  | failed {k : ℕ} (hk : k < remaining)
      (before : ∀ l < k, readStatus imu.ready (reads (i + l)) = invImuOk)
      (here : readStatus imu.ready (reads (i + k)) ≠ invImuOk) :
      LoopEnd warmup reads i remaining imu sums imu' sums' (readStatus imu.ready (reads (i + k)))
  | done (all : ∀ l < remaining, readStatus imu.ready (reads (i + l)) = invImuOk)
      (hsum : ∀ axis : Axis, axis.sum sums' = axis.sum sums +
        ∑ l ∈ Finset.range remaining, if i + l < warmup then 0 else roundRate imu reads axis (i + l))
      (hsqSum : ∀ axis : Axis, axis.sqSum sums' = axis.sqSum sums +
        ∑ l ∈ Finset.range remaining, if i + l < warmup then 0 else
          roundRate imu reads axis (i + l) * roundRate imu reads axis (i + l)) :
      LoopEnd warmup reads i remaining imu sums imu' sums' invImuOk

/-- A good sample before the rest of the loop. -/
theorem LoopEnd.cons {warmup : ℕ} {reads : ℕ → ImuRead} {i remaining : ℕ}
    {imu imu₁ imu' : Icm45688 ℝ} {sums sums₁ sums' : GyroSums ℝ} {status : ℤ}
    (h : LoopEnd warmup reads (i + 1) remaining imu₁ sums₁ imu' sums' status)
    (hsensor : SameSensor imu imu₁) (hok : readStatus imu.ready (reads i) = invImuOk)
    (hshows : ShowsRates imu imu₁ (readRaw (reads i)))
    (hsums : (if i < warmup then sums else sums.add imu₁) = sums₁) :
    LoopEnd warmup reads i (remaining + 1) imu sums imu' sums' status := by
  have hshift (l : ℕ) : i + 1 + l = i + (l + 1) := by omega
  have hbefore {k : ℕ}
      (hall : ∀ l < k, readStatus imu₁.ready (reads (i + 1 + l)) = invImuOk) :
      ∀ l < k + 1, readStatus imu.ready (reads (i + l)) = invImuOk := by
    intro l hl
    cases l with
    | zero => exact hok
    | succ l =>
        rw [← hshift, ← hsensor.ready]
        exact hall l (by omega)
  cases h with
  | @failed k hk before here =>
      rw [hshift, hsensor.ready] at here ⊢
      exact .failed (Nat.succ_lt_succ hk) (hbefore before) here
  | done all hsum hsqSum =>
      have hrate (axis : Axis) : axis.rate imu₁ = roundRate imu reads axis i := hshows.rate axis
      refine .done (hbefore all) (fun axis => ?_) (fun axis => ?_)
      · rw [hsum, ← hsums, Finset.sum_range_succ', add_zero, add_comm (∑ _ ∈ _, _), ← add_assoc]
        congr 1
        · split_ifs with hwarm
          · exact (add_zero _).symm
          · rw [(sum_add axis sums imu₁).1, hrate]
        · refine Finset.sum_congr rfl fun l _ => ?_
          rw [hshift, roundRate_congr hsensor]
      · rw [hsqSum, ← hsums, Finset.sum_range_succ', add_zero, add_comm (∑ _ ∈ _, _), ← add_assoc]
        congr 1
        · split_ifs with hwarm
          · exact (add_zero _).symm
          · rw [(sum_add axis sums imu₁).2, hrate]
        · refine Finset.sum_congr rfl fun l _ => ?_
          rw [hshift, roundRate_congr hsensor]

theorem gyroSampleLoop_end (profile : ImuCalibratedProfile ℝ) (reads : ℕ → ImuRead)
    (i remaining : ℕ) {imu : Icm45688 ℝ} (h : Bare imu) (sums : GyroSums ℝ) :
    SameSensor imu (gyroSampleLoop profile reads i remaining imu sums).2.1 ∧
      LoopEnd profile.gyroCalWarmupSamples reads i remaining imu sums
        (gyroSampleLoop profile reads i remaining imu sums).2.1
        (gyroSampleLoop profile reads i remaining imu sums).2.2
        (gyroSampleLoop profile reads i remaining imu sums).1 := by
  induction remaining generalizing i imu sums with
  | zero =>
      refine ⟨⟨rfl, rfl, rfl⟩, .done (fun l hl => absurd hl (Nat.not_lt_zero l)) ?_ ?_⟩ <;>
      · intro axis
        simp [gyroSampleLoop]
  | succ remaining ih =>
      rw [gyroSampleLoop, waitAndUpdateImu_eq]
      dsimp only
      by_cases hok : readStatus imu.ready (reads i) = invImuOk
      · rw [if_neg (not_not_intro hok), if_pos hok]
        obtain ⟨hshows, hbare, hsensor⟩ := processSample_shows h (readRaw (reads i))
        generalize hsums : (if i < profile.gyroCalWarmupSamples then sums else
          sums.add (imu.processSample (readRaw (reads i)))) = sums₁
        generalize imu.processSample (readRaw (reads i)) = imu₁ at *
        obtain ⟨hrest, hend⟩ := ih (i + 1) hbare sums₁
        exact ⟨hsensor.trans hrest, hend.cons hsensor hok hshows hsums⟩
      · rw [if_pos hok, if_neg hok]
        exact ⟨⟨rfl, rfl, rfl⟩, .failed (k := 0) (Nat.succ_pos remaining)
          (fun l hl => absurd hl (Nat.not_lt_zero l)) hok⟩

/-! ### The standard deviation of a window -/

section Stddev

variable {x : ℕ → ℝ} {n : ℕ} (hn : n ≠ 0)
include hn

theorem rawVariance_eq :
    rawVariance (∑ i ∈ Finset.range n, x i) (∑ i ∈ Finset.range n, x i * x i) n = variance x n := by
  rw [rawVariance, ← onePassVariance_eq (Nat.cast_ne_zero.mpr hn), onePassVariance,
    Int.cast_natCast]

/-- Of sums of samples the variance is not negative, so the clamp is not taken. -/
theorem not_rawVariance_neg :
    ¬ rawVariance (∑ i ∈ Finset.range n, x i) (∑ i ∈ Finset.range n, x i * x i) n < 0.0 := by
  rw [rawVariance_eq hn, not_lt]
  norm_num
  exact variance_nonneg x n

theorem sampleStddev_eq :
    sampleStddev (∑ i ∈ Finset.range n, x i) (∑ i ∈ Finset.range n, x i * x i) n =
      √(variance x n) := by
  rw [sampleStddev, if_neg hn]
  dsimp only
  rw [if_neg (not_rawVariance_neg hn), rawVariance_eq hn]
  rfl

end Stddev

/-! ### An attempt -/

/-- The profile of the car. -/
noncomputable def carProfile : ImuCalibratedProfile ℝ := gImuCalibratedProfile

theorem gyroWindow_carProfile : carProfile.gyroWindow = 2200 := rfl

/-- What the waits of an attempt come to. -/
def attemptReads (reads : ℕ → ImuRead) (attempt i : ℕ) : ImuRead := reads (attempt * 2200 + i)

/-- The rate of an axis in the `j`-th sample of an attempt behind its warm-up. -/
noncomputable def windowRate (imu : Icm45688 ℝ) (reads : ℕ → ImuRead) (axis : Axis)
    (attempt j : ℕ) : ℝ :=
  roundRate imu (attemptReads reads attempt) axis (200 + j)

/-- All samples of an attempt are good. -/
def AllGood (imu : Icm45688 ℝ) (reads : ℕ → ImuRead) (attempt : ℕ) : Prop :=
  ∀ i < 2200, readStatus imu.ready (attemptReads reads attempt i) = invImuOk

theorem sum_behind_warmup (f : ℕ → ℝ) (warmup n : ℕ) :
    (∑ l ∈ Finset.range (warmup + n), if 0 + l < warmup then 0 else f (0 + l)) =
      ∑ j ∈ Finset.range n, f (warmup + j) := by
  have hbefore : ∀ l ∈ Finset.range warmup, (if 0 + l < warmup then 0 else f (0 + l)) = 0 := by
    intro l hl
    have hlt := Finset.mem_range.mp hl
    exact if_pos (by omega)
  have hbehind : ∀ j ∈ Finset.range n,
      (if 0 + (warmup + j) < warmup then 0 else f (0 + (warmup + j))) = f (warmup + j) := by
    intro j _
    rw [if_neg (by omega), zero_add]
  rw [Finset.sum_range_add, Finset.sum_eq_zero hbefore, zero_add, Finset.sum_congr rfl hbehind]

/-- An attempt ends at its first failing sample, or with the sums of its window. -/
theorem gyroAttempt_end {imu : Icm45688 ℝ} (h : imu.gyroLpfCutoffHz ≤ 0) (reads : ℕ → ImuRead)
    (attempt : ℕ) :
    SameSensor imu (gyroAttempt carProfile (attemptReads reads attempt) imu).2.1 ∧
      ((∃ k < 2200, (∀ l < k, readStatus imu.ready (attemptReads reads attempt l) = invImuOk) ∧
          readStatus imu.ready (attemptReads reads attempt k) ≠ invImuOk ∧
          (gyroAttempt carProfile (attemptReads reads attempt) imu).1 =
            readStatus imu.ready (attemptReads reads attempt k)) ∨
        (AllGood imu reads attempt ∧
          (gyroAttempt carProfile (attemptReads reads attempt) imu).1 = invImuOk ∧
          ∀ axis : Axis,
            axis.sum (gyroAttempt carProfile (attemptReads reads attempt) imu).2.2 =
              ∑ j ∈ Finset.range 2000, windowRate imu reads axis attempt j ∧
            axis.sqSum (gyroAttempt carProfile (attemptReads reads attempt) imu).2.2 =
              ∑ j ∈ Finset.range 2000,
                windowRate imu reads axis attempt j * windowRate imu reads axis attempt j)) := by
  obtain ⟨hbare, hbegin⟩ := beginGyroAttempt_bare h
  obtain ⟨hsensor, hend⟩ := gyroSampleLoop_end carProfile (attemptReads reads attempt) 0
    carProfile.gyroWindow hbare GyroSums.zero
  have hattempt : gyroAttempt carProfile (attemptReads reads attempt) imu =
      gyroSampleLoop carProfile (attemptReads reads attempt) 0 carProfile.gyroWindow
        (beginGyroAttempt imu) GyroSums.zero := rfl
  rw [hattempt]
  refine ⟨hbegin.trans hsensor, ?_⟩
  generalize gyroSampleLoop carProfile (attemptReads reads attempt) 0 carProfile.gyroWindow
    (beginGyroAttempt imu) GyroSums.zero = result at hend ⊢
  obtain ⟨status, imu', sums⟩ := result
  have hready : (beginGyroAttempt imu).ready = imu.ready := hbegin.ready
  cases hend with
  | @failed k hk before here =>
      simp only [zero_add, hready] at before here
      refine Or.inl ⟨k, hk, before, here, ?_⟩
      show readStatus (beginGyroAttempt imu).ready (attemptReads reads attempt (0 + k)) = _
      rw [zero_add, hready]
  | done all hsum hsqSum =>
      refine Or.inr ⟨fun i hi => ?_, rfl, fun axis => ⟨?_, ?_⟩⟩
      · have hgood := all i hi
        rwa [zero_add, hready] at hgood
      · have hwindow : carProfile.gyroWindow = 200 + 2000 := rfl
        have hwarmup : carProfile.gyroCalWarmupSamples = 200 := rfl
        rw [hsum, (sum_zero axis).1, zero_add, hwindow, hwarmup,
          sum_behind_warmup fun i => roundRate (beginGyroAttempt imu) _ axis i]
        exact Finset.sum_congr rfl fun j _ => roundRate_congr hbegin ..
      · have hwindow : carProfile.gyroWindow = 200 + 2000 := rfl
        have hwarmup : carProfile.gyroCalWarmupSamples = 200 := rfl
        rw [hsqSum, (sum_zero axis).2, zero_add, hwindow, hwarmup,
          sum_behind_warmup fun i => roundRate (beginGyroAttempt imu) _ axis i *
            roundRate (beginGyroAttempt imu) _ axis i]
        refine Finset.sum_congr rfl fun j _ => ?_
        rw [roundRate_congr hbegin, windowRate]

/-! ### All attempts -/

/-- The device that an attempt begins with. -/
noncomputable def attemptImu (reads : ℕ → ImuRead) (imu : Icm45688 ℝ) : ℕ → Icm45688 ℝ
  | 0 => imu
  | attempt + 1 =>
      (gyroAttempt carProfile (attemptReads reads attempt) (attemptImu reads imu attempt)).2.1

/-- The sums that an attempt ends with. -/
noncomputable def attemptSums (reads : ℕ → ImuRead) (imu : Icm45688 ℝ) (attempt : ℕ) :
    GyroSums ℝ :=
  (gyroAttempt carProfile (attemptReads reads attempt) (attemptImu reads imu attempt)).2.2

/-- The standard deviation of an axis in an attempt. -/
noncomputable def windowStddev (imu : Icm45688 ℝ) (reads : ℕ → ImuRead) (axis : Axis)
    (attempt : ℕ) : ℝ :=
  √(variance (windowRate imu reads axis attempt) 2000)

/-- All samples of an attempt are good, and an axis of it is not quiet. -/
def GoodButNoisy (imu : Icm45688 ℝ) (reads : ℕ → ImuRead) (attempt : ℕ) : Prop :=
  AllGood imu reads attempt ∧ ∃ axis, 0.50 < windowStddev imu reads axis attempt

section Attempts

variable {imu : Icm45688 ℝ} (h : imu.gyroLpfCutoffHz ≤ 0) (reads : ℕ → ImuRead)
include h

theorem sameSensor_attemptImu (attempt : ℕ) : SameSensor imu (attemptImu reads imu attempt) := by
  induction attempt with
  | zero => exact ⟨rfl, rfl, rfl⟩
  | succ attempt ih =>
      exact ih.trans (gyroAttempt_end (ih.cutoff.trans_le h) reads attempt).1

/-- With good samples an attempt gets to the end of its window. -/
theorem gyroAttempt_of_allGood {attempt : ℕ} (hgood : AllGood imu reads attempt) :
    (gyroAttempt carProfile (attemptReads reads attempt)
      (attemptImu reads imu attempt)).1 = invImuOk := by
  have hsensor := sameSensor_attemptImu h reads attempt
  rcases (gyroAttempt_end (hsensor.cutoff.trans_le h) reads attempt).2 with
    ⟨k, hk, -, hfailed, -⟩ | ⟨-, hok, -⟩
  · rw [hsensor.ready] at hfailed
    exact absurd (hgood k hk) hfailed
  · exact hok

/-- The sums of an attempt with good samples. -/
theorem attemptSums_eq {attempt : ℕ}
    (hok : (gyroAttempt carProfile (attemptReads reads attempt)
      (attemptImu reads imu attempt)).1 = invImuOk) (axis : Axis) :
    AllGood imu reads attempt ∧
      axis.sum (attemptSums reads imu attempt) =
        ∑ j ∈ Finset.range 2000, windowRate imu reads axis attempt j ∧
      axis.sqSum (attemptSums reads imu attempt) =
        ∑ j ∈ Finset.range 2000,
          windowRate imu reads axis attempt j * windowRate imu reads axis attempt j := by
  have hsensor := sameSensor_attemptImu h reads attempt
  have hend := gyroAttempt_end (hsensor.cutoff.trans_le h) reads attempt
  have hrate (j : ℕ) : windowRate (attemptImu reads imu attempt) reads axis attempt j =
      windowRate imu reads axis attempt j := roundRate_congr hsensor ..
  rcases hend.2 with ⟨k, -, -, hfailed, hstatus⟩ | ⟨hgood, -, hsums⟩
  · exact absurd (hstatus ▸ hok) hfailed
  · obtain ⟨hsum, hsqSum⟩ := hsums axis
    rw [AllGood, hsensor.ready] at hgood
    simp only [hrate] at hsum hsqSum
    exact ⟨hgood, hsum, hsqSum⟩

theorem noisy_attemptSums {attempt : ℕ}
    (hok : (gyroAttempt carProfile (attemptReads reads attempt)
      (attemptImu reads imu attempt)).1 = invImuOk) :
    (attemptSums reads imu attempt).noisy carProfile = true ↔
      ∃ axis, 0.50 < windowStddev imu reads axis attempt := by
  have hstddev (axis : Axis) :
      sampleStddev (axis.sum (attemptSums reads imu attempt))
        (axis.sqSum (attemptSums reads imu attempt)) 2000 = windowStddev imu reads axis attempt := by
    obtain ⟨-, hsum, hsqSum⟩ := attemptSums_eq h reads hok axis
    rw [hsum, hsqSum, sampleStddev_eq (by norm_num), windowStddev]
  have hnoisy : (attemptSums reads imu attempt).noisy carProfile = true ↔
      (0.50 < windowStddev imu reads .x attempt ∨ 0.50 < windowStddev imu reads .y attempt) ∨
        0.50 < windowStddev imu reads .z attempt := by
    rw [← hstddev .x, ← hstddev .y, ← hstddev .z, GyroSums.noisy, Bool.or_eq_true,
      Bool.or_eq_true, decide_eq_true_eq, decide_eq_true_eq, decide_eq_true_eq]
    rfl
  rw [hnoisy]
  constructor
  · rintro ((hx | hy) | hz)
    · exact ⟨.x, hx⟩
    · exact ⟨.y, hy⟩
    · exact ⟨.z, hz⟩
  · rintro ⟨axis, haxis⟩
    cases axis with
    | x => exact Or.inl (Or.inl haxis)
    | y => exact Or.inl (Or.inr haxis)
    | z => exact Or.inr haxis

/-- Where a calibration is after a number of attempts. -/
inductive Ends (imu : Icm45688 ℝ) (reads : ℕ → ImuRead) (first fuel : ℕ) :
    Option (ℤ × Icm45688 ℝ) → Prop
  /-- Every window so far was noisy. -/
  | goesOn (noisy : ∀ attempt, first ≤ attempt → attempt < first + fuel →
      GoodButNoisy imu reads attempt) : Ends imu reads first fuel none
  /-- A sample failed. -/
  | failed {last k : ℕ} {imu' : Icm45688 ℝ} (hfirst : first ≤ last) (hlast : last < first + fuel)
      (noisy : ∀ attempt, first ≤ attempt → attempt < last → GoodButNoisy imu reads attempt)
      (hk : k < 2200)
      (before : ∀ i < k, readStatus imu.ready (attemptReads reads last i) = invImuOk)
      (here : readStatus imu.ready (attemptReads reads last k) ≠ invImuOk) :
      Ends imu reads first fuel (some (readStatus imu.ready (attemptReads reads last k), imu'))
  /-- A window was quiet. -/
  | done {last : ℕ} {imu' : Icm45688 ℝ} (hfirst : first ≤ last) (hlast : last < first + fuel)
      (noisy : ∀ attempt, first ≤ attempt → attempt < last → GoodButNoisy imu reads attempt)
      (good : AllGood imu reads last)
      (quiet : ∀ axis, windowStddev imu reads axis last ≤ 0.50)
      (bias : ∀ axis : Axis, axis.bias imu' = mean (windowRate imu reads axis last) 2000) :
      Ends imu reads first fuel (some (invImuOk, imu'))

omit h in
/-- A noisy attempt before the others. -/
theorem Ends.cons {reads : ℕ → ImuRead} {first fuel : ℕ} {result : Option (ℤ × Icm45688 ℝ)}
    (hrest : Ends imu reads (first + 1) fuel result) (hnoisy : GoodButNoisy imu reads first) :
    Ends imu reads first (fuel + 1) result := by
  have hall {last : ℕ}
      (hrest : ∀ attempt, first + 1 ≤ attempt → attempt < last → GoodButNoisy imu reads attempt) :
      ∀ attempt, first ≤ attempt → attempt < last → GoodButNoisy imu reads attempt := by
    intro attempt hle hlt
    rcases hle.eq_or_lt with rfl | hgt
    · exact hnoisy
    · exact hrest attempt hgt hlt
  cases hrest with
  | goesOn noisy => exact .goesOn (hall fun attempt hle hlt => noisy attempt hle (by omega))
  | failed hfirst hlast noisy hk before here =>
      exact .failed (by omega) (by omega) (hall noisy) hk before here
  | done hfirst hlast noisy good quiet bias =>
      exact .done (by omega) (by omega) (hall noisy) good quiet bias

theorem calibrateGyroBias_ends (fuel attempt : ℕ) :
    Ends imu reads attempt fuel
      (calibrateGyroBias reads fuel attempt (attemptImu reads imu attempt)) := by
  induction fuel generalizing attempt with
  | zero => exact .goesOn fun attempt hle hlt => absurd hlt (not_lt.mpr hle)
  | succ fuel ih =>
      have hsensor := sameSensor_attemptImu h reads attempt
      have hend := gyroAttempt_end (hsensor.cutoff.trans_le h) reads attempt
      have hattempt :
          gyroAttempt carProfile (attemptReads reads attempt) (attemptImu reads imu attempt) =
          ((gyroAttempt carProfile (attemptReads reads attempt) (attemptImu reads imu attempt)).1,
            attemptImu reads imu (attempt + 1), attemptSums reads imu attempt) := rfl
      have hcar : (gImuCalibratedProfile : ImuCalibratedProfile ℝ) = carProfile := rfl
      have hreads : (fun i => reads (attempt * carProfile.gyroWindow + i)) =
          attemptReads reads attempt := by
        rw [gyroWindow_carProfile]
        rfl
      rw [calibrateGyroBias]
      dsimp only
      rw [hcar, hreads, hattempt]
      dsimp only
      rw [hsensor.ready] at hend
      by_cases hok : (gyroAttempt carProfile (attemptReads reads attempt)
          (attemptImu reads imu attempt)).1 = invImuOk
      · have hgood := (attemptSums_eq h reads hok .x).1
        have hnoisy := noisy_attemptSums h reads hok
        rw [if_neg (not_not_intro hok)]
        by_cases hquiet : (attemptSums reads imu attempt).noisy carProfile = true
        · rw [if_pos hquiet]
          exact (ih (attempt + 1)).cons ⟨hgood, hnoisy.mp hquiet⟩
        · rw [if_neg hquiet]
          refine .done le_rfl (by omega) (fun a hle hlt => absurd hlt (not_lt.mpr hle)) hgood
            (fun axis => ?_) fun axis => ?_
          · exact not_lt.mp fun hlt => hquiet (hnoisy.mpr ⟨axis, hlt⟩)
          · rw [mean, ← (attemptSums_eq h reads hok axis).2.1]
            cases axis <;> rfl
      · rw [if_pos hok]
        rcases hend.2 with ⟨k, hk, before, here, hstatus⟩ | ⟨-, hdone, -⟩
        · rw [hstatus]
          exact .failed le_rfl (by omega) (fun a hle hlt => absurd hlt (not_lt.mpr hle)) hk before
            here
        · exact absurd hdone hok

end Attempts

/-- What is asked of the attempts of a calibration that ends well: the bias is the mean of
the last window, whose standard deviations are within the limit; every earlier attempt had
one beyond it; and in no attempt a variance came out negative. -/
structure MeanOfQuietWindow (reads : ℕ → ImuRead) (imu imu' : Icm45688 ℝ) (last : ℕ) : Prop where
  good : ∀ k < (last + 1) * 2200, readStatus imu.ready (reads k) = invImuOk
  bias : ∀ axis : Axis, axis.bias imu' = mean (windowRate imu reads axis last) 2000
  quiet : ∀ axis, √(variance (windowRate imu reads axis last) 2000) ≤ 0.50
  earlier : ∀ attempt < last, ∃ axis, 0.50 < √(variance (windowRate imu reads axis attempt) 2000)
  unclamped : ∀ attempt ≤ last, ∀ axis : Axis,
    ¬ rawVariance (axis.sum (attemptSums reads imu attempt))
      (axis.sqSum (attemptSums reads imu attempt)) 2000 < 0.0

theorem good_before {imu : Icm45688 ℝ} {reads : ℕ → ImuRead} {last : ℕ}
    (h : ∀ attempt < last, AllGood imu reads attempt) :
    ∀ k < last * 2200, readStatus imu.ready (reads k) = invImuOk := by
  intro k hk
  have hgood := h (k / 2200) (Nat.div_lt_of_lt_mul (by omega)) (k % 2200) (Nat.mod_lt _ (by norm_num))
  rwa [attemptReads, mul_comm, Nat.div_add_mod] at hgood

/-- The calibration of the gyro in exact arithmetic, for a device with the low-pass of the
gyro off and for every stream of samples: if it ends well, then with the mean of a quiet
window, the first one; otherwise with the status of the first sample that fails. -/
theorem gyro_calibration (reads : ℕ → ImuRead) (fuel : ℕ) (imu imu' : Icm45688 ℝ) (status : ℤ)
    (hcutoff : imu.gyroLpfCutoffHz ≤ 0)
    (hreturns : calibrateGyroBias reads fuel 0 imu = some (status, imu')) :
    (status = invImuOk → ∃ last, MeanOfQuietWindow reads imu imu' last) ∧
      (status ≠ invImuOk → ∃ k, (∀ i < k, readStatus imu.ready (reads i) = invImuOk) ∧
        readStatus imu.ready (reads k) = status) := by
  have hends := calibrateGyroBias_ends hcutoff reads fuel 0
  rw [attemptImu, hreturns] at hends
  generalize hresult : some (status, imu') = result at hends
  cases hends with
  | goesOn => cases hresult
  | @failed last k _ _ _ noisy _ before here =>
      obtain ⟨rfl, -⟩ := Prod.mk.inj (Option.some.inj hresult)
      refine ⟨fun hok => absurd hok here, fun _ => ⟨last * 2200 + k, fun i hi => ?_, rfl⟩⟩
      by_cases hlt : i < last * 2200
      · exact good_before (fun attempt hlt => (noisy attempt (Nat.zero_le _) hlt).1) i hlt
      · have hgood := before (i - last * 2200) (by omega)
        rwa [attemptReads, Nat.add_sub_cancel' (not_lt.mp hlt)] at hgood
  | @done last _ _ _ noisy good quiet bias =>
      obtain ⟨rfl, rfl⟩ := Prod.mk.inj (Option.some.inj hresult)
      have hall : ∀ attempt < last + 1, AllGood imu reads attempt := by
        intro attempt hlt
        rcases Nat.lt_succ_iff_lt_or_eq.mp hlt with hlt | rfl
        · exact (noisy attempt (Nat.zero_le _) hlt).1
        · exact good
      refine ⟨fun _ => ⟨last, good_before hall, bias, quiet,
        fun attempt hlt => (noisy attempt (Nat.zero_le _) hlt).2, fun attempt hle axis => ?_⟩,
        fun hne => absurd rfl hne⟩
      have hok := gyroAttempt_of_allGood hcutoff reads (hall attempt (Nat.lt_succ_of_le hle))
      obtain ⟨-, hsum, hsqSum⟩ := attemptSums_eq hcutoff reads hok axis
      rw [hsum, hsqSum]
      exact not_rawVariance_neg (by norm_num)

theorem cutoff_setAccelRejection (imu : Icm45688 ℝ) (rejectionAngleDeg : ℝ) :
    (imu.setAccelRejection rejectionAngleDeg).gyroLpfCutoffHz = imu.gyroLpfCutoffHz := by
  rw [setAccelRejection]
  split_ifs <;> rfl

theorem cutoff_setAttitudeMode (imu : Icm45688 ℝ) (mode : AttitudeMode) :
    (imu.setAttitudeMode mode).gyroLpfCutoffHz = imu.gyroLpfCutoffHz := by
  rw [setAttitudeMode]
  split_ifs <;> rfl

theorem cutoff_begin (imu : Icm45688 ℝ) (status : ℤ) :
    (imu.begin status).gyroLpfCutoffHz = imu.gyroLpfCutoffHz := by
  rw [begin]
  split_ifs <;> rfl

/-- The service calibrates a device that has the low-pass of the gyro off. -/
theorem cutoff_configureImuHandle (status : ℤ) :
    ((configureImuHandle : Icm45688 ℝ).begin status).gyroLpfCutoffHz ≤ 0 := by
  have hoff : (if (0.0 : ℝ) > 0.0 then (0.0 : ℝ) else 0.0) ≤ 0 := by norm_num
  rw [cutoff_begin, configureImuHandle]
  dsimp only [setMahonyGains]
  rw [cutoff_setAccelRejection, setAccelTrustWindow]
  dsimp only
  rw [cutoff_setAttitudeMode]
  exact hoff

/-- The sensor lies still. -/
def stillReads (_ : ℕ) : ImuRead := .data invImuOk ⟨0, 0, 2048, 0, 0, 0, 0⟩

theorem windowRate_still (imu : Icm45688 ℝ) (axis : Axis) (attempt : ℕ) :
    windowRate imu stillReads axis attempt = fun _ => 0 := by
  funext j
  have hword : axis.word (readRaw (attemptReads stillReads attempt (200 + j))) = 0 := by
    cases axis <;> rfl
  rw [windowRate, roundRate, hword, rawRate]
  simp

theorem gyro_calibration_still :
    ∃ imu', calibrateGyroBias stillReads 1 0 ((configureImuHandle : Icm45688 ℝ).begin invImuOk) =
        some (invImuOk, imu') ∧
      ∃ last, MeanOfQuietWindow stillReads ((configureImuHandle : Icm45688 ℝ).begin invImuOk) imu'
        last := by
  have hcutoff := cutoff_configureImuHandle invImuOk
  have hends := calibrateGyroBias_ends hcutoff stillReads 1 0
  rw [attemptImu] at hends
  have hstddev (imu : Icm45688 ℝ) (axis : Axis) : windowStddev imu stillReads axis 0 = 0 := by
    rw [windowStddev, windowRate_still, variance]
    simp [mean]
  generalize hresult : calibrateGyroBias stillReads 1 0
    ((configureImuHandle : Icm45688 ℝ).begin invImuOk) = result at hends
  cases hends with
  | goesOn noisy =>
      obtain ⟨axis, hnoisy⟩ := (noisy 0 le_rfl Nat.one_pos).2
      rw [hstddev] at hnoisy
      norm_num at hnoisy
  | failed _ _ _ _ _ here => exact absurd rfl here
  | @done last imu' =>
      refine ⟨imu', rfl, ?_⟩
      exact (gyro_calibration stillReads 1 _ imu' invImuOk hcutoff hresult).1 rfl

end GyroCalibration

end NuedcFirmware.Modules
