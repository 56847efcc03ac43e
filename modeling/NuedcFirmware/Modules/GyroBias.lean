import NuedcFirmware.Lib.Smoothing
import NuedcFirmware.Lib.Streak
import NuedcFirmware.Modules.Attitude

/-!
The learning of the gyro bias, in exact arithmetic.

Two saturating counters stand one on the other. The standstill detector counts the samples
that pass the instantaneous test, up to its hold time, and the bias filter counts the
samples that are still and slow while it is enabled, up to 600. Each is the counter of a
streak (`counter_iff_streak`), so it tells how long that has lasted in the run: the flag is
set when the test has been passed for the hold time, and a bias is only learned by a sample
that is the 601st of its kind. What the attitude update does to a device is of no
importance here, as the learner does not see it (`learner_processSample`).
-/

namespace NuedcFirmware.Modules.GyroBias

open NuedcFirmware.Lib Icm45688
open Attitude (Op sampled processSample_eq)

/-! ### Detector and learner -/

/-- The part of a device that its stationary flag depends on. -/
structure Detector where
  stationary : Bool
  sampleCount : ℕ
  holdSamples : ℕ

/-- The part of a device that its bias depends on. -/
structure Learner (F : Type*) where
  ready : Bool
  autoUpdate : Bool
  learningRate : F
  samples : ℕ
  biasX : F
  biasY : F
  biasZ : F
  detector : Detector

/-- The variable `hold_samples`. -/
def Detector.hold (d : Detector) : ℕ := if d.holdSamples = 0 then 1 else d.holdSamples

/-- The detector after a sample that passes the instantaneous test, or does not. -/
def Detector.after (still : Prop) [Decidable still] (d : Detector) : Detector :=
  let sampleCount :=
    if still then if d.sampleCount < d.hold then d.sampleCount + 1 else d.sampleCount else 0
  { d with sampleCount, stationary := sampleCount ≥ d.hold }

section Sample

variable {F : Type*} [CMath F] (dev : Icm45688 F) (raw : InvImuSensorData)

def learner (dev : Icm45688 F) : Learner F where
  ready := dev.ready
  autoUpdate := dev.gyroBiasAutoUpdate
  learningRate := dev.gyroBiasLearningRate
  samples := dev.gyroBiasStationarySamples
  biasX := dev.gyroBiasXDps
  biasY := dev.gyroBiasYDps
  biasZ := dev.gyroBiasZDps
  detector :=
    { stationary := dev.stationary
      sampleCount := dev.stationarySampleCount
      holdSamples := dev.stationaryHoldSamples }

/-- The rate that a word of the gyro stands for. -/
def rawRate (word : ℤ) : F := (word : F) * dev.gyroFsrDps / rawMax

/-- The device after the low-pass of a sample. -/
def lowpassed : Icm45688 F :=
  let filtered := dev.applySampleLowpass ((raw.accelX : F) * dev.accelFsrG / rawMax)
    ((raw.accelY : F) * dev.accelFsrG / rawMax) ((raw.accelZ : F) * dev.accelFsrG / rawMax)
    ((rawRate dev raw.gyroX - dev.gyroBiasXDps) * dev.gyroScaleX)
    ((rawRate dev raw.gyroY - dev.gyroBiasYDps) * dev.gyroScaleY)
    ((rawRate dev raw.gyroZ - dev.gyroBiasZDps) * dev.gyroScaleZ)
  { filtered with tempC := 25.0 + (raw.temp : F) / 128.0 }

/-- The device as the bias filter of a sample finds it. -/
def detected : Icm45688 F := (lowpassed dev raw).updateStationaryState

/-- The device after the bias filter of a sample. -/
def learned : Icm45688 F :=
  (detected dev raw).updateAutoGyroBias (rawRate dev raw.gyroX) (rawRate dev raw.gyroY)
    (rawRate dev raw.gyroZ)

/-- The instantaneous standstill test. -/
def InstantStationary (dev : Icm45688 F) : Prop :=
  (dev.axG * dev.axG + dev.ayG * dev.ayG + dev.azG * dev.azG > minNormSq ∧
      dev.stationaryGyroThresholdDps > 0.0 ∧ dev.stationaryAccelThresholdG ≥ 0.0) ∧
    sqrtf (dev.gxDps * dev.gxDps + dev.gyDps * dev.gyDps + dev.gzDps * dev.gzDps) ≤
      dev.stationaryGyroThresholdDps ∧
    fabsf (sqrtf (dev.axG * dev.axG + dev.ayG * dev.ayG + dev.azG * dev.azG) - 1.0) ≤
      dev.stationaryAccelThresholdG

instance : Decidable (InstantStationary dev) := inferInstanceAs (Decidable ((_ ∧ _ ∧ _) ∧ _ ∧ _))

/-- The sample finds the device still, and all of its rates slow. -/
def Quiet : Prop :=
  (detected dev raw).stationary = true ∧
    ¬ fabsf (detected dev raw).gxDps > biasLearnGyroDps ∧
    ¬ fabsf (detected dev raw).gyDps > biasLearnGyroDps ∧
    ¬ fabsf (detected dev raw).gzDps > biasLearnGyroDps

instance : Decidable (Quiet dev raw) := inferInstanceAs (Decidable (_ ∧ _ ∧ _ ∧ _))

/-- A learner after a quiet sample of the given rates, or one that is not quiet. -/
def Learner.after (quiet : Prop) [Decidable quiet] (rateX rateY rateZ : F) (l : Learner F) :
    Learner F :=
  if l.autoUpdate = false then l
  else if ¬ quiet then { l with samples := 0 }
  else if l.samples < biasLearnStationarySamples then { l with samples := l.samples + 1 }
  else
    let learn := clampf l.learningRate 0.0 1.0
    if learn ≤ 0.0 then l
    else
      { l with
        biasX := l.biasX + (rateX - l.biasX) * learn
        biasY := l.biasY + (rateY - l.biasY) * learn
        biasZ := l.biasZ + (rateZ - l.biasZ) * learn }

theorem Learner.after_writes (l : Learner F) (quiet : Prop) [Decidable quiet]
    (rateX rateY rateZ : F) :
    ∃ samples biasX biasY biasZ,
      l.after quiet rateX rateY rateZ = { l with samples, biasX, biasY, biasZ } := by
  rw [Learner.after]
  dsimp only
  split_ifs <;> exact ⟨_, _, _, _, rfl⟩

/-! ### A sample -/

theorem learner_lowpassed : learner (lowpassed dev raw) = learner dev := by
  rw [lowpassed]
  obtain ⟨_, _, _, _, _, _, _, hwrites⟩ := dev.applySampleLowpass_writes
    ((raw.accelX : F) * dev.accelFsrG / rawMax) ((raw.accelY : F) * dev.accelFsrG / rawMax)
    ((raw.accelZ : F) * dev.accelFsrG / rawMax)
    ((rawRate dev raw.gyroX - dev.gyroBiasXDps) * dev.gyroScaleX)
    ((rawRate dev raw.gyroY - dev.gyroBiasYDps) * dev.gyroScaleY)
    ((rawRate dev raw.gyroZ - dev.gyroBiasZDps) * dev.gyroScaleZ)
  rw [hwrites]
  rfl

theorem learner_updateStationaryState :
    learner dev.updateStationaryState =
      { learner dev with detector := (learner dev).detector.after (InstantStationary dev) } := by
  have htest : (((dev.axG * dev.axG + dev.ayG * dev.ayG + dev.azG * dev.azG > minNormSq &&
      dev.stationaryGyroThresholdDps > 0.0 && dev.stationaryAccelThresholdG ≥ 0.0) &&
      (sqrtf (dev.gxDps * dev.gxDps + dev.gyDps * dev.gyDps + dev.gzDps * dev.gzDps) ≤
          dev.stationaryGyroThresholdDps &&
        fabsf (sqrtf (dev.axG * dev.axG + dev.ayG * dev.ayG + dev.azG * dev.azG) - 1.0) ≤
          dev.stationaryAccelThresholdG) : Bool) = true) ↔ InstantStationary dev := by
    simp only [InstantStationary, Bool.and_eq_true, decide_eq_true_eq, and_assoc]
  rw [updateStationaryState]
  simp only [htest]
  rfl

theorem learner_detected :
    learner (detected dev raw) =
      { learner dev with
        detector := (learner dev).detector.after (InstantStationary (lowpassed dev raw)) } := by
  rw [detected, learner_updateStationaryState, learner_lowpassed]

theorem learner_learned :
    learner (learned dev raw) =
      (learner (detected dev raw)).after (Quiet dev raw) (rawRate dev raw.gyroX)
        (rawRate dev raw.gyroY) (rawRate dev raw.gyroZ) := by
  have hquiet : ((detected dev raw).stationary = false ∨
      fabsf (detected dev raw).gxDps > biasLearnGyroDps ∨
      fabsf (detected dev raw).gyDps > biasLearnGyroDps ∨
      fabsf (detected dev raw).gzDps > biasLearnGyroDps) ↔ ¬ Quiet dev raw := by
    rw [Quiet, not_and_or, not_and_or, not_and_or, not_not, not_not, not_not, Bool.not_eq_true]
  rw [learned, updateAutoGyroBias, Learner.after]
  simp only [Bool.not_eq_true', hquiet]
  split_ifs <;> first | rfl | contradiction

theorem detector_learned :
    (learner (learned dev raw)).detector = (learner (detected dev raw)).detector := by
  obtain ⟨_, _, _, _, hwrites⟩ := (learner (detected dev raw)).after_writes (Quiet dev raw)
    (rawRate dev raw.gyroX) (rawRate dev raw.gyroY) (rawRate dev raw.gyroZ)
  rw [learner_learned, hwrites]

omit [CMath F] in
theorem learner_setRates (x y z : F) :
    learner { dev with gxDps := x, gyDps := y, gzDps := z } = learner dev := rfl

theorem learner_sampled : learner (sampled dev raw) = learner (learned dev raw) :=
  learner_setRates (learned dev raw) _ _ _

/-- A sample does to the learner what detector and bias filter do. -/
theorem learner_processSample :
    learner (dev.processSample raw) = learner (learned dev raw) := by
  rw [processSample_eq, ← learner_sampled]
  cases (sampled dev raw).attitudeMode with
  | mahony6Axis =>
      obtain ⟨_, _, _, _, _, _, _, _, _, _, hwrites⟩ := (sampled dev raw).updateMahonyAttitude_writes
      exact (congrArg learner hwrites).trans rfl
  | complementary =>
      obtain ⟨_, _, _, hwrites⟩ := (sampled dev raw).updateComplementaryAttitude_writes
      exact (congrArg learner hwrites).trans rfl

end Sample

/-! ### Runs -/

/-- The calls that write a device: it is set up anew, or one of its operations runs. -/
inductive Call (F : Type*)
  | initHandleSpi
  | op (op : Op F)

section Calls

variable {F : Type*} [CMath F] (dev : Icm45688 F)

def step : Call F → Icm45688 F
  | .initHandleSpi => initHandleSpi
  | .op op => Attitude.step dev op

/-- What a call returns that is an `Update`. -/
def updateStatus : Call F → Option ℤ
  | .op (.update status raw) => some (dev.update status raw).1
  | _ => none

/-- The call is an `Update` that returns `INV_IMU_OK`. -/
def Succeeds (call : Call F) : Prop := updateStatus dev call = some invImuOk

instance (call : Call F) : Decidable (Succeeds dev call) :=
  inferInstanceAs (Decidable (_ = _))

/-- The call does not reset the detector, and a sample that it takes passes the
instantaneous test. -/
def StandsStill : Call F → Prop
  | .initHandleSpi => False
  | .op (.begin _) => False
  | .op (.setStationaryDetection ..) => False
  | .op (.update status raw) =>
      Succeeds dev (.op (.update status raw)) → InstantStationary (lowpassed dev raw)
  | _ => True

/-- The call does not reset the learning, and a sample that it takes is quiet, with the
learning enabled. -/
def Undisturbed : Call F → Prop
  | .initHandleSpi => False
  | .op (.begin _) => False
  | .op (.setStationaryDetection ..) => False
  | .op (.setGyroBias ..) => False
  | .op (.setGyroBiasAutoUpdate ..) => False
  | .op (.update status raw) =>
      Succeeds dev (.op (.update status raw)) → dev.gyroBiasAutoUpdate = true ∧ Quiet dev raw
  | _ => True

end Calls

section Step

variable {F : Type*} [CMath F] {dev : Icm45688 F}

theorem succeeds_update {status : ℤ} {raw : InvImuSensorData} :
    Succeeds dev (.op (.update status raw)) ↔ dev.ready = true ∧ status = invImuOk := by
  rw [Succeeds, updateStatus, Icm45688.update, Option.some.injEq]
  cases dev.ready with
  | false => simp [invImuOk, invImuError]
  | true =>
      by_cases hstatus : status = invImuOk
      · simp [hstatus]
      · simp [hstatus]

theorem exists_of_succeeds {call : Call F} (h : Succeeds dev call) :
    ∃ raw, call = .op (.update invImuOk raw) ∧ step dev call = dev.processSample raw := by
  rcases call with _ | op
  · cases h
  · cases op with
    | update status raw =>
        obtain ⟨hready, rfl⟩ := succeeds_update.mp h
        refine ⟨raw, rfl, ?_⟩
        rw [step, Attitude.step, Icm45688.update, hready]
        rfl
    | _ => cases h

theorem learner_of_succeeds {raw : InvImuSensorData}
    (h : Succeeds dev (.op (.update invImuOk raw))) :
    learner (step dev (.op (.update invImuOk raw))) = learner (learned dev raw) := by
  obtain ⟨raw', hcall, hstep⟩ := exists_of_succeeds h
  obtain ⟨-, rfl⟩ := Op.update.inj (Call.op.inj hcall)
  rw [hstep, learner_processSample]

/-- A call that lets the learning go on and takes no sample changes nothing for it. -/
theorem learner_of_undisturbed {call : Call F} (h : Undisturbed dev call)
    (hnone : ¬ Succeeds dev call) : learner (step dev call) = learner dev := by
  rcases call with _ | op
  · cases h
  · cases op with
    | update status raw =>
        rw [succeeds_update, not_and_or] at hnone
        rw [step, Attitude.step, Icm45688.update]
        split_ifs with hready hstatus
        · rfl
        · rfl
        · simp at hready hstatus
          simp [hready, hstatus] at hnone
    | setAttitudeMode mode =>
        rw [step, Attitude.step, setAttitudeMode]
        split_ifs <;> rfl
    | setAccelRejection rejectionAngleDeg =>
        rw [step, Attitude.step, setAccelRejection]
        split_ifs <;> rfl
    | setGyroBias => cases h
    | setStationaryDetection => cases h
    | setGyroBiasAutoUpdate => cases h
    | begin => cases h
    | _ => rfl

/-- A call that lets a standstill go on and takes no sample changes nothing for the
detector. -/
theorem detector_of_standsStill {call : Call F} (h : StandsStill dev call)
    (hnone : ¬ Succeeds dev call) :
    (learner (step dev call)).detector = (learner dev).detector := by
  by_cases hundisturbed : Undisturbed dev call
  · rw [learner_of_undisturbed hundisturbed hnone]
  · rcases call with _ | op
    · cases h
    · cases op with
      | update status raw => exact absurd (fun hsucceeds => absurd hsucceeds hnone) hundisturbed
      | setGyroBias => rfl
      | setGyroBiasAutoUpdate => rfl
      | setStationaryDetection => cases h
      | begin => cases h
      | _ => exact absurd trivial hundisturbed

/-! ### The counters -/

/-- What holds of the detector in every state. -/
structure Detector.Consistent (d : Detector) : Prop where
  flag : d.stationary = decide (d.sampleCount ≥ d.hold)
  le : d.sampleCount ≤ d.hold
  holdSamples : d.holdSamples ≠ 0

theorem Detector.Consistent.of_zero {d : Detector} (hflag : d.stationary = false)
    (hcount : d.sampleCount = 0) (hhold : d.holdSamples ≠ 0) : d.Consistent := by
  have hpos : 0 < d.hold := by
    rw [Detector.hold, if_neg hhold]
    exact Nat.pos_of_ne_zero hhold
  refine ⟨?_, by omega, hhold⟩
  rw [hflag, hcount]
  exact (decide_eq_false (by omega)).symm

/-- A call resets the detector, takes a sample, or leaves the detector alone. -/
theorem detector_step (call : Call F) (h : (learner dev).detector.Consistent) :
    (¬ StandsStill dev call ∧ ¬ Succeeds dev call ∧
        (learner (step dev call)).detector.stationary = false ∧
        (learner (step dev call)).detector.sampleCount = 0 ∧
        (learner (step dev call)).detector.holdSamples ≠ 0) ∨
      (∃ raw, call = .op (.update invImuOk raw) ∧ Succeeds dev call ∧
        (learner (step dev call)).detector =
          (learner dev).detector.after (InstantStationary (lowpassed dev raw))) ∨
      (StandsStill dev call ∧ ¬ Succeeds dev call ∧
        (learner (step dev call)).detector = (learner dev).detector) := by
  by_cases hsucceeds : Succeeds dev call
  · obtain ⟨raw, rfl, -⟩ := exists_of_succeeds hsucceeds
    refine Or.inr (Or.inl ⟨raw, rfl, hsucceeds, ?_⟩)
    rw [learner_of_succeeds hsucceeds, detector_learned, learner_detected]
  · by_cases hstill : StandsStill dev call
    · exact Or.inr (Or.inr ⟨hstill, hsucceeds, detector_of_standsStill hstill hsucceeds⟩)
    · refine Or.inl ⟨hstill, hsucceeds, ?_⟩
      rcases call with _ | op
      · exact ⟨rfl, rfl, Nat.succ_ne_zero 4⟩
      · cases op with
        | begin status =>
            have hlearner : (learner (step dev (.op (.begin status)))).detector =
                ⟨false, 0, dev.stationaryHoldSamples⟩ := by
              rw [step, Attitude.step, begin]
              split_ifs <;> rfl
            rw [hlearner]
            exact ⟨rfl, rfl, h.holdSamples⟩
        | setStationaryDetection gyroThresholdDps accelThresholdG holdSamples =>
            refine ⟨rfl, rfl, ?_⟩
            show (if holdSamples = 0 then 1 else holdSamples) ≠ 0
            split_ifs with hzero
            · exact one_ne_zero
            · exact hzero
        | update status raw => exact absurd (fun h => absurd h hsucceeds) hstill
        | _ => exact absurd trivial hstill

/-- A call resets the learning, takes a sample, or leaves the learner alone. -/
theorem learner_step (call : Call F) :
    (¬ Undisturbed dev call ∧ ¬ Succeeds dev call ∧ (learner (step dev call)).samples = 0) ∨
      (∃ raw, call = .op (.update invImuOk raw) ∧ Succeeds dev call ∧
        learner (step dev call) =
          (learner (detected dev raw)).after (Quiet dev raw) (rawRate dev raw.gyroX)
            (rawRate dev raw.gyroY) (rawRate dev raw.gyroZ)) ∨
      (Undisturbed dev call ∧ ¬ Succeeds dev call ∧ learner (step dev call) = learner dev) := by
  by_cases hsucceeds : Succeeds dev call
  · obtain ⟨raw, rfl, -⟩ := exists_of_succeeds hsucceeds
    refine Or.inr (Or.inl ⟨raw, rfl, hsucceeds, ?_⟩)
    rw [learner_of_succeeds hsucceeds, learner_learned]
  · by_cases hundisturbed : Undisturbed dev call
    · exact Or.inr (Or.inr
        ⟨hundisturbed, hsucceeds, learner_of_undisturbed hundisturbed hsucceeds⟩)
    · refine Or.inl ⟨hundisturbed, hsucceeds, ?_⟩
      rcases call with _ | op
      · rfl
      · cases op with
        | begin status =>
            rw [step, Attitude.step, begin]
            split_ifs <;> rfl
        | setStationaryDetection => rfl
        | setGyroBias => rfl
        | setGyroBiasAutoUpdate => rfl
        | update status raw => exact absurd (fun h => absurd h hsucceeds) hundisturbed
        | _ => exact absurd trivial hundisturbed

theorem consistent_step (call : Call F) (h : (learner dev).detector.Consistent) :
    (learner (step dev call)).detector.Consistent := by
  rcases detector_step call h with ⟨-, -, hflag, hcount, hhold⟩ | ⟨raw, rfl, -, hafter⟩ |
    ⟨-, -, hsame⟩
  · exact .of_zero hflag hcount hhold
  · rw [hafter]
    refine ⟨rfl, ?_, h.holdSamples⟩
    have hle := h.le
    show (if InstantStationary (lowpassed dev raw) then _ else 0) ≤ (learner dev).detector.hold
    split_ifs <;> omega
  · rw [hsame]
    exact h

/-- While a standstill goes on its hold time stays. -/
theorem hold_of_standsStill {call : Call F} (h : (learner dev).detector.Consistent)
    (hlasts : StandsStill dev call) :
    (learner (step dev call)).detector.hold = (learner dev).detector.hold := by
  rcases detector_step call h with ⟨hreset, -⟩ | ⟨raw, rfl, -, hafter⟩ | ⟨-, -, hsame⟩
  · exact absurd hlasts hreset
  · rw [hafter]
    rfl
  · rw [hsame]

/-- The counter of the detector counts samples that stand still. -/
theorem counts_detector (call : Call F) (h : (learner dev).detector.Consistent) :
    Counts (StandsStill dev call) (Succeeds dev call) (learner (step dev call)).detector.hold
      (learner dev).detector.sampleCount (learner (step dev call)).detector.sampleCount := by
  have hle := h.le
  rcases detector_step call h with ⟨hlasts, hnone, -, hcount, -⟩ | ⟨raw, rfl, hsucceeds, hafter⟩ |
    ⟨hlasts, hnone, hsame⟩
  · exact ⟨fun _ => hcount, fun h => absurd h hlasts, fun h => absurd h hlasts⟩
  · have hstill : StandsStill dev (.op (.update invImuOk raw)) ↔
        InstantStationary (lowpassed dev raw) := forall_prop_of_true hsucceeds
    have hcount : (learner (step dev (.op (.update invImuOk raw)))).detector.sampleCount =
        if InstantStationary (lowpassed dev raw) then
          if (learner dev).detector.sampleCount < (learner dev).detector.hold then
            (learner dev).detector.sampleCount + 1
          else (learner dev).detector.sampleCount
        else 0 := congrArg Detector.sampleCount hafter
    have hhold : (learner (step dev (.op (.update invImuOk raw)))).detector.hold =
        (learner dev).detector.hold := by
      rw [hafter]
      rfl
    rw [hstill, hcount, hhold]
    refine ⟨fun h => if_neg h, fun _ h => absurd hsucceeds h, fun h _ => ?_⟩
    rw [if_pos h]
    split_ifs <;> omega
  · exact ⟨fun h => absurd hlasts h, fun _ _ => congrArg Detector.sampleCount hsame,
      fun _ h => absurd h hnone⟩

/-- What holds of the learner in every state. -/
structure Learner.Consistent (l : Learner F) : Prop where
  detector : l.detector.Consistent
  disabled : l.autoUpdate = false → l.samples = 0
  le : l.samples ≤ biasLearnStationarySamples

/-- The counter of a learner after a sample. -/
theorem Learner.samples_after {l : Learner F} (hdisabled : l.autoUpdate = false → l.samples = 0)
    (hle : l.samples ≤ biasLearnStationarySamples) (quiet : Prop) [Decidable quiet]
    (rateX rateY rateZ : F) :
    (l.after quiet rateX rateY rateZ).samples =
      if l.autoUpdate = true ∧ quiet then min (l.samples + 1) biasLearnStationarySamples
      else 0 := by
  by_cases hactive : l.autoUpdate = true ∧ quiet
  · rw [if_pos hactive, Learner.after, if_neg (by simp [hactive.1]),
      if_neg (not_not_intro hactive.2)]
    by_cases hlt : l.samples < biasLearnStationarySamples
    · rw [if_pos hlt]
      exact (min_eq_left hlt).symm
    · have hfull : l.samples = min (l.samples + 1) biasLearnStationarySamples := by omega
      rw [if_neg hlt]
      dsimp only
      split_ifs <;> exact hfull
  · rw [if_neg hactive, Learner.after]
    by_cases hoff : l.autoUpdate = false
    · rw [if_pos hoff]
      exact hdisabled hoff
    · rw [if_neg hoff, if_pos fun hquiet => hactive ⟨by simpa using hoff, hquiet⟩]

/-- A sample of a consistent learner. -/
theorem samples_learned (raw : InvImuSensorData) (h : (learner dev).Consistent) :
    ((learner (detected dev raw)).after (Quiet dev raw) (rawRate dev raw.gyroX)
        (rawRate dev raw.gyroY) (rawRate dev raw.gyroZ)).samples =
      if dev.gyroBiasAutoUpdate = true ∧ Quiet dev raw then
        min (dev.gyroBiasStationarySamples + 1) biasLearnStationarySamples
      else 0 := by
  rw [learner_detected]
  exact Learner.samples_after
    (l := { learner dev with
      detector := (learner dev).detector.after (InstantStationary (lowpassed dev raw)) })
    h.disabled h.le (Quiet dev raw) _ _ _

theorem learner_consistent_step (call : Call F) (h : (learner dev).Consistent) :
    (learner (step dev call)).Consistent := by
  have hdetector := consistent_step call h.detector
  rcases learner_step call with ⟨-, -, hzero⟩ | ⟨raw, rfl, -, hafter⟩ | ⟨-, -, hsame⟩
  · exact ⟨hdetector, fun _ => hzero, hzero.trans_le (Nat.zero_le _)⟩
  · have hsamples := samples_learned raw h
    have hauto : ((learner (detected dev raw)).after (Quiet dev raw) (rawRate dev raw.gyroX)
        (rawRate dev raw.gyroY) (rawRate dev raw.gyroZ)).autoUpdate = dev.gyroBiasAutoUpdate := by
      obtain ⟨_, _, _, _, hwrites⟩ := (learner (detected dev raw)).after_writes (Quiet dev raw)
        (rawRate dev raw.gyroX) (rawRate dev raw.gyroY) (rawRate dev raw.gyroZ)
      rw [hwrites, learner_detected]
      rfl
    rw [← hafter] at hsamples hauto
    refine ⟨hdetector, fun hoff => ?_, ?_⟩
    · rw [hauto] at hoff
      rw [hsamples, hoff]
      exact if_neg fun h => Bool.false_ne_true h.1
    · rw [hsamples]
      split_ifs <;> omega
  · exact ⟨hdetector, hsame ▸ h.disabled, hsame ▸ h.le⟩

/-- The counter of the learner counts quiet samples. -/
theorem counts_learning (call : Call F) (h : (learner dev).Consistent) :
    Counts (Undisturbed dev call) (Succeeds dev call) biasLearnStationarySamples
      (learner dev).samples (learner (step dev call)).samples := by
  rcases learner_step call with ⟨hlasts, hnone, hzero⟩ | ⟨raw, rfl, hsucceeds, hafter⟩ |
    ⟨hlasts, hnone, hsame⟩
  · exact ⟨fun _ => hzero, fun h => absurd h hlasts, fun h => absurd h hlasts⟩
  · have hquiet : Undisturbed dev (.op (.update invImuOk raw)) ↔
        dev.gyroBiasAutoUpdate = true ∧ Quiet dev raw := forall_prop_of_true hsucceeds
    rw [hquiet, hafter, samples_learned raw h]
    exact ⟨fun h => if_neg h, fun _ h => absurd hsucceeds h, fun h _ => if_pos h⟩
  · exact ⟨fun h => absurd hlasts h, fun _ _ => congrArg Learner.samples hsame,
      fun _ h => absurd h hnone⟩

end Step

/-! ### Every run -/

section Run

variable {F : Type*} [CMath F]

/-- What holds after the calls of a run: both counters are those of a streak. -/
structure Inv (calls : List (Call F)) : Prop where
  consistent : (learner (exec step initHandleSpi calls)).Consistent
  still : ∀ k ≤ (learner (exec step initHandleSpi calls)).detector.hold,
    k ≤ (learner (exec step initHandleSpi calls)).detector.sampleCount ↔
      Streak step StandsStill Succeeds initHandleSpi calls k
  quiet : ∀ k ≤ biasLearnStationarySamples,
    k ≤ (learner (exec step initHandleSpi calls)).samples ↔
      Streak step Undisturbed Succeeds initHandleSpi calls k

theorem streak_nil_iff {lasts : Icm45688 F → Call F → Prop} (k : ℕ) :
    k ≤ 0 ↔ Streak step lasts Succeeds initHandleSpi [] k := by
  constructor
  · intro hk
    rw [Nat.le_zero.mp hk]
    exact streak_zero
  · rintro ⟨before, window, hrun, -, hcount⟩
    obtain ⟨rfl, rfl⟩ := List.append_eq_nil_iff.mp hrun.symm
    exact hcount

theorem inv (calls : List (Call F)) : Inv calls := by
  induction calls using List.reverseRecOn with
  | nil =>
      have hdetector : (learner (initHandleSpi : Icm45688 F)).detector.Consistent :=
        .of_zero rfl rfl (Nat.succ_ne_zero 4)
      exact ⟨⟨hdetector, fun _ => rfl, Nat.zero_le _⟩, fun k _ => streak_nil_iff k,
        fun k _ => streak_nil_iff k⟩
  | append_singleton calls call ih =>
      have hexec : exec step initHandleSpi (calls ++ [call]) =
          step (exec step initHandleSpi calls) call := exec_append ..
      have hdetector := counts_detector call ih.consistent.detector
      have hlearning := counts_learning call ih.consistent
      refine ⟨?_, fun k hk => ?_, fun k hk => ?_⟩
      · rw [hexec]
        exact learner_consistent_step call ih.consistent
      · rw [hexec] at hk ⊢
        refine counter_iff_streak hdetector (fun hlasts => ?_) hk
        rw [hold_of_standsStill ih.consistent.detector hlasts]
        exact ih.still
      · rw [hexec]
        exact counter_iff_streak hlearning (fun _ => ih.quiet) hk

end Run

/-! ### What is learned -/

theorem clampf_mem (x : ℝ) : 0 ≤ clampf x 0.0 1.0 ∧ clampf x 0.0 1.0 ≤ 1 := by
  rw [clampf]
  split_ifs with hlt hgt <;> norm_num at *
  exact ⟨hlt, hgt⟩

theorem pos_of_clampf_pos {x : ℝ} (h : ¬ clampf x 0.0 1.0 ≤ 0.0) : 0 < x := by
  rw [clampf] at h
  split_ifs at h with hlt hgt <;> norm_num at *
  · linarith
  · exact h

/-- A bias after a sample: the old one, or, for a quiet sample of a full counter, a part of
the way to the rate. -/
theorem Learner.bias_after (l : Learner ℝ) (quiet : Prop) [Decidable quiet]
    (rateX rateY rateZ : ℝ) :
    ((l.after quiet rateX rateY rateZ).biasX = l.biasX ∧
        (l.after quiet rateX rateY rateZ).biasY = l.biasY ∧
        (l.after quiet rateX rateY rateZ).biasZ = l.biasZ) ∨
      (l.autoUpdate = true ∧ quiet ∧ biasLearnStationarySamples ≤ l.samples ∧
        0 < l.learningRate ∧ ∃ learn, 0 ≤ learn ∧ learn ≤ 1 ∧
          (l.after quiet rateX rateY rateZ).biasX = smooth learn rateX l.biasX ∧
          (l.after quiet rateX rateY rateZ).biasY = smooth learn rateY l.biasY ∧
          (l.after quiet rateX rateY rateZ).biasZ = smooth learn rateZ l.biasZ) := by
  rw [Learner.after]
  by_cases hoff : l.autoUpdate = false
  · rw [if_pos hoff]
    exact Or.inl ⟨rfl, rfl, rfl⟩
  by_cases hquiet : quiet
  · by_cases hlt : l.samples < biasLearnStationarySamples
    · rw [if_neg hoff, if_neg (not_not_intro hquiet), if_pos hlt]
      exact Or.inl ⟨rfl, rfl, rfl⟩
    · rw [if_neg hoff, if_neg (not_not_intro hquiet), if_neg hlt]
      dsimp only
      by_cases hlearn : clampf l.learningRate 0.0 1.0 ≤ 0.0
      · rw [if_pos hlearn]
        exact Or.inl ⟨rfl, rfl, rfl⟩
      · rw [if_neg hlearn]
        have hsmooth (rate bias learn : ℝ) : bias + (rate - bias) * learn = smooth learn rate bias := by
          rw [smooth]
          ring
        obtain ⟨hnonneg, hle⟩ := clampf_mem l.learningRate
        exact Or.inr ⟨by simpa using hoff, hquiet, not_lt.mp hlt, pos_of_clampf_pos hlearn, _,
          hnonneg, hle, hsmooth .., hsmooth .., hsmooth ..⟩
  · rw [if_neg hoff, if_pos hquiet]
    exact Or.inl ⟨rfl, rfl, rfl⟩

/-- A smoothed value is between its old value and the input. -/
theorem smooth_mem_uIcc {learn : ℝ} (hnonneg : 0 ≤ learn) (hle : learn ≤ 1) (x y : ℝ) :
    smooth learn x y ∈ Set.uIcc y x := by
  rcases le_total y x with h | h
  · rw [Set.uIcc_of_le h]
    exact smooth_mem_of_le hnonneg hle h
  · rw [Set.uIcc_of_ge h]
    exact smooth_mem_of_ge hnonneg hle h

/-- What is asked of a sample that a device takes after the calls of a run. -/
structure LearnsAtRest (calls : List (Call ℝ)) (dev dev' : Icm45688 ℝ) (raw : InvImuSensorData) :
    Prop where
  /-- A bias that has changed was to be learned, and the last 601 samples, this one
  included, were quiet, without a reset in between. -/
  learning :
    (dev'.gyroBiasXDps ≠ dev.gyroBiasXDps ∨ dev'.gyroBiasYDps ≠ dev.gyroBiasYDps ∨
        dev'.gyroBiasZDps ≠ dev.gyroBiasZDps) →
      dev.gyroBiasAutoUpdate = true ∧ 0 < dev.gyroBiasLearningRate ∧
        Streak step Undisturbed Succeeds initHandleSpi
          (calls ++ [.op (.update invImuOk raw)]) (1 + 600)
  /-- The flag is set when the last samples, as many as the hold time, passed the test,
  without a reset in between. -/
  stationary :
    dev'.stationary = true ↔
      Streak step StandsStill Succeeds initHandleSpi (calls ++ [.op (.update invImuOk raw)])
        dev'.stationaryHoldSamples
  between :
    dev'.gyroBiasXDps ∈ Set.uIcc dev.gyroBiasXDps (rawRate dev raw.gyroX) ∧
      dev'.gyroBiasYDps ∈ Set.uIcc dev.gyroBiasYDps (rawRate dev raw.gyroY) ∧
      dev'.gyroBiasZDps ∈ Set.uIcc dev.gyroBiasZDps (rawRate dev raw.gyroZ)

/-- In exact arithmetic, for every run of calls and every sample that the device takes after
it: the bias is learned only in a long standstill, and stays between its old value and the
raw rate; the stationary flag says whether the standstill has lasted for the hold time. -/
theorem learns_at_rest (calls : List (Call ℝ)) (status : ℤ) (raw : InvImuSensorData)
    (hsucceeds : Succeeds (exec step initHandleSpi calls) (.op (.update status raw))) :
    LearnsAtRest calls (exec step initHandleSpi calls)
      (step (exec step initHandleSpi calls) (.op (.update status raw))) raw := by
  obtain ⟨-, rfl⟩ := succeeds_update.mp hsucceeds
  set dev := exec step initHandleSpi calls with hdev
  have hinv := inv calls
  have hnext := inv (calls ++ [.op (.update invImuOk raw)])
  have hexec : exec step initHandleSpi (calls ++ [.op (.update invImuOk raw)]) =
      step dev (.op (.update invImuOk raw)) := exec_append ..
  have hlearner : learner (step dev (.op (.update invImuOk raw))) =
      (learner (detected dev raw)).after (Quiet dev raw) (rawRate dev raw.gyroX)
        (rawRate dev raw.gyroY) (rawRate dev raw.gyroZ) := by
    rw [learner_of_succeeds hsucceeds, learner_learned]
  set dev' := step dev (.op (.update invImuOk raw)) with hdev'
  have hX : (learner dev').biasX = dev'.gyroBiasXDps := rfl
  have hY : (learner dev').biasY = dev'.gyroBiasYDps := rfl
  have hZ : (learner dev').biasZ = dev'.gyroBiasZDps := rfl
  have hafter := (learner (detected dev raw)).bias_after (Quiet dev raw) (rawRate dev raw.gyroX)
    (rawRate dev raw.gyroY) (rawRate dev raw.gyroZ)
  rw [← hlearner, learner_detected, hX, hY, hZ] at hafter
  refine ⟨fun hchanged => ?_, ?_, ?_⟩
  · rcases hafter with ⟨hx, hy, hz⟩ | ⟨hauto, hquiet, hfull, hrate, -⟩
    · rcases hchanged with h | h | h
      · exact absurd hx h
      · exact absurd hy h
      · exact absurd hz h
    · refine ⟨hauto, hrate, streak_snoc.mpr (Or.inr ⟨fun _ => ⟨hauto, hquiet⟩, ?_⟩)⟩
      rw [← hdev, if_pos hsucceeds]
      exact (hinv.quiet 600 le_rfl).mp hfull
  · have hdetector := hnext.consistent.detector
    rw [hexec] at hdetector
    have hhold : (learner dev').detector.hold = dev'.stationaryHoldSamples :=
      if_neg hdetector.holdSamples
    rw [← hhold, ← hnext.still _ (by rw [hexec]), hexec]
    show (learner dev').detector.stationary = true ↔ _
    rw [hdetector.flag, decide_eq_true_eq]
  · rcases hafter with ⟨hx, hy, hz⟩ | ⟨-, -, -, -, learn, hnonneg, hle, hx, hy, hz⟩
    · rw [hx, hy, hz]
      exact ⟨Set.left_mem_uIcc, Set.left_mem_uIcc, Set.left_mem_uIcc⟩
    · rw [hx, hy, hz]
      exact ⟨smooth_mem_uIcc hnonneg hle _ _, smooth_mem_uIcc hnonneg hle _ _,
        smooth_mem_uIcc hnonneg hle _ _⟩

/-! ### A sensor at rest -/

/-- What a sample is converted and judged by. -/
structure Settings (F : Type*) where
  ready : Bool
  accelFsrG : F
  gyroFsrDps : F
  gyroScaleX : F
  gyroScaleY : F
  gyroScaleZ : F
  gyroThresholdDps : F
  accelThresholdG : F
  accelCutoffHz : F
  gyroCutoffHz : F

section Settings

variable {F : Type*} [CMath F] (dev : Icm45688 F) (raw : InvImuSensorData)

def settings (dev : Icm45688 F) : Settings F where
  ready := dev.ready
  accelFsrG := dev.accelFsrG
  gyroFsrDps := dev.gyroFsrDps
  gyroScaleX := dev.gyroScaleX
  gyroScaleY := dev.gyroScaleY
  gyroScaleZ := dev.gyroScaleZ
  gyroThresholdDps := dev.stationaryGyroThresholdDps
  accelThresholdG := dev.stationaryAccelThresholdG
  accelCutoffHz := dev.accelLpfCutoffHz
  gyroCutoffHz := dev.gyroLpfCutoffHz

theorem settings_detected : settings (detected dev raw) = settings dev := by
  obtain ⟨_, _, _, _, _, _, _, hwrites⟩ := dev.applySampleLowpass_writes
    ((raw.accelX : F) * dev.accelFsrG / rawMax) ((raw.accelY : F) * dev.accelFsrG / rawMax)
    ((raw.accelZ : F) * dev.accelFsrG / rawMax)
    ((rawRate dev raw.gyroX - dev.gyroBiasXDps) * dev.gyroScaleX)
    ((rawRate dev raw.gyroY - dev.gyroBiasYDps) * dev.gyroScaleY)
    ((rawRate dev raw.gyroZ - dev.gyroBiasZDps) * dev.gyroScaleZ)
  rw [detected, lowpassed, hwrites]
  rfl

/-- No sample changes a setting. -/
theorem settings_processSample : settings (dev.processSample raw) = settings dev := by
  have hlearned : settings (learned dev raw) = settings dev := by
    obtain ⟨_, _, _, _, hwrites⟩ := (detected dev raw).updateAutoGyroBias_writes
      (rawRate dev raw.gyroX) (rawRate dev raw.gyroY) (rawRate dev raw.gyroZ)
    rw [learned, hwrites, ← settings_detected dev raw]
    rfl
  have hsampled : settings (sampled dev raw) = settings dev := hlearned
  rw [processSample_eq, ← hsampled]
  cases (sampled dev raw).attitudeMode with
  | mahony6Axis =>
      obtain ⟨_, _, _, _, _, _, _, _, _, _, hwrites⟩ := (sampled dev raw).updateMahonyAttitude_writes
      exact (congrArg settings hwrites).trans rfl
  | complementary =>
      obtain ⟨_, _, _, hwrites⟩ := (sampled dev raw).updateComplementaryAttitude_writes
      exact (congrArg settings hwrites).trans rfl

end Settings

/-- What `initHandleSpi` sets, with the sensor started. -/
noncomputable def initialSettings : Settings ℝ :=
  { settings (initHandleSpi : Icm45688 ℝ) with ready := true }

/-- A sample at rest: 1 g downwards, and 1 / 32768 of the full scale about one axis. -/
def restSample : InvImuSensorData := ⟨0, 0, 2048, 1, 0, 0, 0⟩

theorem lpfStep_zero (prev input dtS : ℝ) : lpfStep prev input 0.0 dtS = input := by
  rw [lpfStep, lpfAlpha, if_pos (Or.inl le_rfl)]
  norm_num

/-- The learner of a sensor that has been at rest for some samples since the learning was
switched on, and has learned nothing yet. -/
noncomputable def restingLearner (samples : ℕ) : Learner ℝ where
  ready := true
  autoUpdate := true
  learningRate := 0.001
  samples := samples - 4
  biasX := 0
  biasY := 0
  biasZ := 0
  detector := { stationary := decide (5 ≤ samples), sampleCount := min samples 5, holdSamples := 5 }

structure Resting (samples : ℕ) (dev : Icm45688 ℝ) : Prop where
  settings_eq : settings dev = initialSettings
  learner_eq : learner dev = restingLearner samples

section Resting

variable {samples : ℕ} {dev : Icm45688 ℝ} (h : Resting samples dev)
include h

/-- The low-pass lets the sample through. -/
theorem lowpassed_of_resting :
    (lowpassed dev restSample).axG = 0 ∧ (lowpassed dev restSample).ayG = 0 ∧
      (lowpassed dev restSample).azG = 1 ∧ (lowpassed dev restSample).gxDps = 1000 / 32768 ∧
      (lowpassed dev restSample).gyDps = 0 ∧ (lowpassed dev restSample).gzDps = 0 := by
  have haccel : dev.accelFsrG = 16.0 := congrArg Settings.accelFsrG h.settings_eq
  have hgyro : dev.gyroFsrDps = 1000.0 := congrArg Settings.gyroFsrDps h.settings_eq
  have hscaleX : dev.gyroScaleX = 1.0 := congrArg Settings.gyroScaleX h.settings_eq
  have hscaleY : dev.gyroScaleY = 1.0 := congrArg Settings.gyroScaleY h.settings_eq
  have hscaleZ : dev.gyroScaleZ = 1.0 := congrArg Settings.gyroScaleZ h.settings_eq
  have haccelCutoff : dev.accelLpfCutoffHz = 0.0 := congrArg Settings.accelCutoffHz h.settings_eq
  have hgyroCutoff : dev.gyroLpfCutoffHz = 0.0 := congrArg Settings.gyroCutoffHz h.settings_eq
  have hbiasX : dev.gyroBiasXDps = 0 := congrArg Learner.biasX h.learner_eq
  have hbiasY : dev.gyroBiasYDps = 0 := congrArg Learner.biasY h.learner_eq
  have hbiasZ : dev.gyroBiasZDps = 0 := congrArg Learner.biasZ h.learner_eq
  simp only [lowpassed, applySampleLowpass, rawRate, haccel, hgyro, hscaleX, hscaleY,
    hscaleZ, haccelCutoff, hgyroCutoff, hbiasX, hbiasY, hbiasZ, lpfStep_zero]
  split_ifs <;> norm_num [restSample, rawMax]

/-- The sample passes the instantaneous test. -/
theorem instantStationary_of_resting : InstantStationary (lowpassed dev restSample) := by
  obtain ⟨hax, hay, haz, hgx, hgy, hgz⟩ := lowpassed_of_resting h
  have hsettings := (settings_detected dev restSample).trans h.settings_eq
  have hgyro : (lowpassed dev restSample).stationaryGyroThresholdDps = 1.5 :=
    congrArg Settings.gyroThresholdDps hsettings
  have haccel : (lowpassed dev restSample).stationaryAccelThresholdG = 0.08 :=
    congrArg Settings.accelThresholdG hsettings
  have hnorm : Real.sqrt (1000 / 32768 * (1000 / 32768)) = 1000 / 32768 :=
    Real.sqrt_mul_self (by norm_num)
  rw [InstantStationary, hax, hay, haz, hgx, hgy, hgz, hgyro, haccel]
  simp only [sqrtf, fabsf, mul_zero, zero_add, add_zero, mul_one, Real.sqrt_one, hnorm, minNormSq]
  norm_num

theorem learner_detected_of_resting :
    learner (detected dev restSample) =
      { restingLearner samples with detector := (restingLearner (samples + 1)).detector } := by
  have hcount : (if min samples 5 < 5 then min samples 5 + 1 else min samples 5) =
      min (samples + 1) 5 := by
    split_ifs <;> omega
  have hflag : 5 ≤ min (samples + 1) 5 ↔ 5 ≤ samples + 1 := by omega
  rw [learner_detected, h.learner_eq, Detector.after]
  simp only [restingLearner, Detector.hold, if_pos (instantStationary_of_resting h),
    OfNat.ofNat_ne_zero, if_false, hcount, ge_iff_le, hflag]

/-- From the fifth sample on the samples are quiet. -/
theorem quiet_iff_of_resting : Quiet dev restSample ↔ 5 ≤ samples + 1 := by
  obtain ⟨-, -, -, hgx, hgy, hgz⟩ := lowpassed_of_resting h
  have hx : (detected dev restSample).gxDps = 1000 / 32768 := hgx
  have hy : (detected dev restSample).gyDps = 0 := hgy
  have hz : (detected dev restSample).gzDps = 0 := hgz
  have hstill : (detected dev restSample).stationary = decide (5 ≤ samples + 1) :=
    congrArg (fun l => l.detector.stationary) (learner_detected_of_resting h)
  rw [Quiet, hx, hy, hz, hstill, decide_eq_true_eq]
  simp only [fabsf, biasLearnGyroDps]
  norm_num

/-- The learner after the sample. -/
theorem learner_step_of_resting :
    learner (step dev (.op (.update invImuOk restSample))) =
      (learner (detected dev restSample)).after (Quiet dev restSample) (1000 / 32768) 0 0 := by
  have hready : dev.ready = true := congrArg Settings.ready h.settings_eq
  have hgyro : dev.gyroFsrDps = 1000.0 := congrArg Settings.gyroFsrDps h.settings_eq
  have hx : rawRate dev restSample.gyroX = 1000 / 32768 := by
    norm_num [rawRate, hgyro, restSample, rawMax]
  have hyz : rawRate dev 0 = 0 := by norm_num [rawRate]
  rw [learner_of_succeeds (succeeds_update.mpr ⟨hready, rfl⟩), learner_learned, hx]
  show (learner (detected dev restSample)).after _ _ (rawRate dev 0) (rawRate dev 0) = _
  rw [hyz]

/-- The samples are counted until there are 600. -/
theorem Resting.step (hsamples : samples < 604) :
    Resting (samples + 1) (GyroBias.step dev (.op (.update invImuOk restSample))) := by
  have hready : dev.ready = true := congrArg Settings.ready h.settings_eq
  obtain ⟨raw, hcall, hstep⟩ := exists_of_succeeds (succeeds_update.mpr ⟨hready, rfl⟩ :
    Succeeds dev (.op (.update invImuOk restSample)))
  refine ⟨?_, ?_⟩
  · rw [hstep, settings_processSample, h.settings_eq]
  · rw [learner_step_of_resting h, learner_detected_of_resting h, Learner.after]
    by_cases hquiet : 5 ≤ samples + 1
    · have hfew : samples - 4 < biasLearnStationarySamples := by
        rw [biasLearnStationarySamples]
        omega
      have hnext : samples - 4 + 1 = samples + 1 - 4 := by omega
      simp only [restingLearner, quiet_iff_of_resting h, hquiet, hfew, hnext, not_true_eq_false,
        if_true, if_false, Bool.true_eq_false]
    · have hzero : samples + 1 - 4 = 0 := by omega
      simp only [restingLearner, quiet_iff_of_resting h, hquiet, hzero, not_false_eq_true,
        if_true, if_false, Bool.true_eq_false]

/-- Then a sample is learned. -/
theorem bias_step_of_resting (hsamples : samples = 604) :
    dev.gyroBiasXDps = 0 ∧
      (GyroBias.step dev (.op (.update invImuOk restSample))).gyroBiasXDps = 1000 / 32768 * 0.001 := by
  have hquiet : 5 ≤ samples + 1 := by omega
  have hfull : ¬ samples - 4 < biasLearnStationarySamples := by
    rw [biasLearnStationarySamples]
    omega
  have hrate : clampf (0.001 : ℝ) 0.0 1.0 = 0.001 := by norm_num [clampf]
  have hpos : ¬ (0.001 : ℝ) ≤ 0.0 := by norm_num
  refine ⟨congrArg Learner.biasX h.learner_eq, ?_⟩
  have hlearner := learner_step_of_resting h
  rw [learner_detected_of_resting h, Learner.after] at hlearner
  simp only [restingLearner, quiet_iff_of_resting h, hquiet, hfull, hrate, hpos, not_true_eq_false,
    if_false, Bool.true_eq_false] at hlearner
  refine (congrArg Learner.biasX hlearner).trans ?_
  norm_num

end Resting

/-- The sensor is started, the learning is switched on, and samples at rest follow. -/
noncomputable def restingCalls (samples : ℕ) : List (Call ℝ) :=
  [.op (.begin invImuOk), .op (.setGyroBiasAutoUpdate true 0.001)] ++
    List.replicate samples (.op (.update invImuOk restSample))

theorem resting_exec {samples : ℕ} (hsamples : samples ≤ 604) :
    Resting samples (exec step initHandleSpi (restingCalls samples)) := by
  induction samples with
  | zero =>
      have hrate : (if (0.001 : ℝ) ≥ 0.0 ∧ (0.001 : ℝ) ≤ 1.0 then (0.001 : ℝ) else 0.0010) = 0.001 :=
        if_pos (by norm_num)
      have hzero : (0.0 : ℝ) = 0 := by norm_num
      refine ⟨rfl, ?_⟩
      show Learner.mk true true (if (0.001 : ℝ) ≥ 0.0 ∧ (0.001 : ℝ) ≤ 1.0 then (0.001 : ℝ)
        else 0.0010) 0 (0.0 : ℝ) 0.0 0.0 ⟨false, 0, 5⟩ = restingLearner 0
      rw [hrate, hzero]
      rfl
  | succ samples ih =>
      have hcalls : restingCalls (samples + 1) =
          restingCalls samples ++ [.op (.update invImuOk restSample)] := by
        rw [restingCalls, List.replicate_succ', ← List.append_assoc]
        rfl
      rw [hcalls, exec_append]
      exact (ih (by omega)).step (by omega)

/-- The 605th sample at rest is learned, since the fifth was the first that was quiet. -/
theorem learns_at_rest_learned :
    (exec step initHandleSpi (restingCalls 604)).gyroBiasXDps = 0 ∧
      (step (exec step initHandleSpi (restingCalls 604))
        (.op (.update invImuOk restSample))).gyroBiasXDps = 1000 / 32768 * 0.001 ∧
      LearnsAtRest (restingCalls 604) (exec step initHandleSpi (restingCalls 604))
        (step (exec step initHandleSpi (restingCalls 604)) (.op (.update invImuOk restSample)))
        restSample := by
  have h : Resting 604 (exec step initHandleSpi (restingCalls 604)) := resting_exec le_rfl
  generalize restingCalls 604 = calls at h ⊢
  have hready : (exec step initHandleSpi calls).ready = true :=
    congrArg Settings.ready h.settings_eq
  obtain ⟨hbefore, hafter⟩ := bias_step_of_resting h rfl
  exact ⟨hbefore, hafter,
    learns_at_rest calls invImuOk restSample (succeeds_update.mpr ⟨hready, rfl⟩)⟩

end NuedcFirmware.Modules.GyroBias
