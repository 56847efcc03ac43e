import NuedcFirmware.Lib.Centroid
import NuedcFirmware.Lib.Run
import NuedcFirmware.Lib.Smoothing
import NuedcFirmware.Modules.LineSensor
import Mathlib.Tactic.IntervalCases

/-!
The line position in exact arithmetic.

An update samples the channels and takes the smallest reading off all of them; what
remains is a profile, and the raw bias of a frame is the centre of its profile
(`rawBias_eq_centre`). A sensor is *normalised* when bias and last bias are in `[-1, 1]`.
Both an update and a reset keep it so, since a centre is in this interval and the filter
does not leave it.
-/

namespace NuedcFirmware.Modules

open NuedcFirmware.Lib NuedcFirmware.Platform

/-! ### The parts of an update -/

section Frame

variable {F : Type*}

/-- What a channel of the frame shows above the smallest reading. -/
def DevLineSensorFrame.profile (frame : DevLineSensorFrame F) (i : ℕ) : ℕ :=
  frame.raw.getD i 0 - frame.minValue

/-- The variable `strength` after `k` rounds of the loop. -/
def DevLineSensorFrame.strengthAfter (frame : DevLineSensorFrame F) (k : ℕ) : ℕ :=
  (List.range k).foldl (fun sum i => sum + frame.profile i) 0

/-- The variable `weighted` after `k` rounds of the loop. -/
def DevLineSensorFrame.weightedAfter (frame : DevLineSensorFrame F) (k : ℕ) : ℤ :=
  (List.range k).foldl
    (fun sum i => sum + DevLineSensor.sensorWeight i frame.count * (frame.profile i : ℤ)) 0

/-- An update of this frame divides. -/
def DevLineSensorFrame.Divides (frame : DevLineSensorFrame F) : Prop :=
  frame.onLine = true ∧ frame.strengthAfter frame.count ≠ 0 ∧ frame.count > 1

instance (frame : DevLineSensorFrame F) : Decidable frame.Divides :=
  inferInstanceAs (Decidable (_ ∧ _ ∧ _))

open DevLineSensor

/-- The variable `min_v`. -/
def lowest (raw : List ℕ) (count : ℕ) : ℕ :=
  (List.range count).foldl (fun m i => min m (raw.getD i 0)) (raw.getD 0 0)

/-- The variable `max_v`. -/
def highest (raw : List ℕ) (count : ℕ) : ℕ :=
  (List.range count).foldl (fun m i => max m (raw.getD i 0)) (raw.getD 0 0)

/-- The frame of an update before its bias is set. -/
def DevLineSensor.sample (sensor : DevLineSensor F) (b : Board) : DevLineSensorFrame F :=
  let count := getCount sensor.config
  let raw := clearUnusedRaw (sensor.readings b) count
  let minV := lowest raw count
  let contrast := highest raw count - minV
  let strength := (List.range count).foldl (fun sum i => sum + (raw.getD i 0 - minV)) 0
  let frame : DevLineSensorFrame F :=
    { sensor.frame with
      raw, count, bits := 0, minValue := minV, maxValue := highest raw count, contrast,
      strength := clampU16 strength
      onLine := decide (contrast ≥ getContrastThreshold sensor.config ∧
        clampU16 strength ≥ getStrengthThreshold sensor.config) }
  { frame with
    bits := match sensor.config.array with
      | some array => drvLineSensorReadBits array b
      | none => bitsFromRaw frame }

/-- When a frame is on the line. -/
theorem onLine_sample (sensor : DevLineSensor F) (b : Board) :
    (sensor.sample b).onLine =
      decide ((sensor.sample b).maxValue - (sensor.sample b).minValue ≥
          getContrastThreshold sensor.config ∧
        clampU16 ((sensor.sample b).strengthAfter (sensor.sample b).count) ≥
          getStrengthThreshold sensor.config) := rfl

theorem getStrengthThreshold_pos (config : DevLineSensorConfig F) :
    0 < getStrengthThreshold config := by
  rw [getStrengthThreshold]
  split_ifs with h
  · exact Nat.pos_of_ne_zero h
  · exact Nat.succ_pos 259

/-- A frame on the line has some strength, since the threshold is positive. -/
theorem divides_of_onLine {sensor : DevLineSensor F} {b : Board}
    (hcount : 1 < getCount sensor.config) (h : (sensor.sample b).onLine = true) :
    (sensor.sample b).Divides := by
  refine ⟨h, fun hzero => ?_, hcount⟩
  have hstrength : getStrengthThreshold sensor.config ≤
      clampU16 ((sensor.sample b).strengthAfter (sensor.sample b).count) := by
    rw [onLine_sample, decide_eq_true_eq] at h
    exact h.2
  rw [hzero] at hstrength
  exact absurd (getStrengthThreshold_pos sensor.config) (Nat.not_lt.mpr hstrength)

variable [CFloat F]

/-- What an update divides by. -/
def DevLineSensorFrame.divisor (frame : DevLineSensorFrame F) : F :=
  ((frame.strengthAfter frame.count : ℤ) : F) * (((frame.count - 1 : ℕ) : ℤ) : F)

def DevLineSensorFrame.rawBias (frame : DevLineSensorFrame F) : F :=
  (frame.weightedAfter frame.count : F) / frame.divisor

/-- The bias is filtered when the frame has one, and held otherwise. -/
theorem devLineSensorUpdate_eq (sensor : DevLineSensor F) (b : Board)
    (hcount : getCount sensor.config ≠ 0) :
    devLineSensorUpdate sensor b =
      if (sensor.sample b).Divides then
        let bias := sensor.filterBias (sensor.sample b).rawBias
        { sensor with
          frame := { sensor.sample b with bias, lastBias := bias }, biasPrimed := true }
      else
        { sensor with frame := { sensor.sample b with bias := (sensor.sample b).lastBias } } := by
  rw [devLineSensorUpdate, if_neg hcount]
  rfl

@[simp] theorem config_devLineSensorUpdate (sensor : DevLineSensor F) (b : Board) :
    (devLineSensorUpdate sensor b).config = sensor.config := by
  by_cases hcount : getCount sensor.config = 0
  · rw [devLineSensorUpdate, if_pos hcount]
  · rw [devLineSensorUpdate_eq sensor b hcount]
    split <;> rfl

end Frame

/-! ### The sums -/

section Sums

variable {F : Type*} (frame : DevLineSensorFrame F) (k : ℕ)

theorem strengthAfter_eq_mass : frame.strengthAfter k = mass frame.profile k :=
  foldl_add_range ..

theorem weightedAfter_eq_moment :
    frame.weightedAfter k = moment frame.count (fun i => (frame.profile i : ℤ)) k :=
  foldl_add_range ..

/-- The sums of the loop fit in their variables, in every round. -/
def DevLineSensorFrame.SumsFit : Prop :=
  ∀ k ≤ frame.count, frame.strengthAfter k < 2 ^ 32 ∧
    -2 ^ 31 ≤ frame.weightedAfter k ∧ frame.weightedAfter k < 2 ^ 31

variable {frame}

/-- Eight channels of 16 bits: the strength stays below `8 * 2 ^ 16`, and no channel is
further than 7 from the middle. -/
theorem sumsFit (hcount : frame.count ≤ drvLineSensorMaxCount)
    (hprofile : ∀ i, frame.profile i < 2 ^ 16) : frame.SumsFit := by
  intro k hk
  have hcount' : frame.count ≤ 8 := hcount
  have hstrength : frame.strengthAfter k ≤ k * 2 ^ 16 := by
    have hsum := Finset.sum_le_card_nsmul (Finset.range k) frame.profile (2 ^ 16)
      fun i _ => (hprofile i).le
    rwa [Finset.card_range, smul_eq_mul, ← mass, ← strengthAfter_eq_mass] at hsum
  have hweighted : |frame.weightedAfter k| ≤ ((frame.count : ℤ) - 1) * frame.strengthAfter k := by
    have hmoment := abs_moment_le (v := fun i => (frame.profile i : ℤ)) hk fun i _ => by positivity
    rwa [← weightedAfter_eq_moment, ← cast_mass, ← strengthAfter_eq_mass] at hmoment
  have hmass : ((frame.count : ℤ) - 1) * frame.strengthAfter k ≤ 7 * frame.strengthAfter k :=
    mul_le_mul_of_nonneg_right (by omega) (by positivity)
  rw [abs_le] at hweighted
  omega

end Sums

section Centre

variable {frame : DevLineSensorFrame ℝ}

theorem cast_pred_count (hcount : 1 < frame.count) :
    (((frame.count - 1 : ℕ) : ℤ) : ℝ) = (frame.count : ℝ) - 1 := by
  rw [Int.cast_natCast, Nat.cast_sub hcount.le, Nat.cast_one]

theorem divisor_eq (hcount : 1 < frame.count) :
    frame.divisor =
      mass (fun i => (frame.profile i : ℝ)) frame.count * ((frame.count : ℝ) - 1) := by
  rw [DevLineSensorFrame.divisor, cast_pred_count hcount, strengthAfter_eq_mass, Int.cast_natCast,
    cast_mass]

theorem rawBias_eq_centre (hcount : 1 < frame.count) :
    frame.rawBias = centre frame.count fun i => (frame.profile i : ℝ) := by
  rw [DevLineSensorFrame.rawBias, divisor_eq hcount, weightedAfter_eq_moment, cast_moment, centre]
  simp only [Int.cast_natCast]

theorem mass_pos (h : frame.Divides) :
    0 < mass (fun i => (frame.profile i : ℝ)) frame.count := by
  rw [← cast_mass, ← strengthAfter_eq_mass]
  exact_mod_cast Nat.pos_of_ne_zero h.2.1

theorem divisor_ne_zero (h : frame.Divides) : frame.divisor ≠ 0 := by
  rw [divisor_eq h.2.2]
  exact (mul_pos (mass_pos h) (one_lt_cast h.2.2)).ne'

theorem rawBias_mem (h : frame.Divides) : -1 ≤ frame.rawBias ∧ frame.rawBias ≤ 1 := by
  rw [rawBias_eq_centre h.2.2]
  exact centre_mem h.2.2 (fun i _ => Nat.cast_nonneg _) (mass_pos h)

end Centre

/-! ### The filter -/

section Filter

open DevLineSensor

theorem getAlpha_mem (config : DevLineSensorConfig ℝ) :
    0 < getAlpha config ∧ getAlpha config ≤ 1 := by
  rw [getAlpha]
  split_ifs with h
  · norm_num
  · rw [not_or, not_le, not_lt] at h
    norm_num at h
    exact h

theorem filterBias_of_unprimed {sensor : DevLineSensor ℝ} (h : sensor.biasPrimed = false)
    (rawBias : ℝ) : sensor.filterBias rawBias = rawBias := by
  rw [DevLineSensor.filterBias, h]
  rfl

theorem filterBias_of_primed {sensor : DevLineSensor ℝ} (h : sensor.biasPrimed = true)
    (rawBias : ℝ) :
    sensor.filterBias rawBias = smooth (getAlpha sensor.config) rawBias sensor.frame.bias := by
  rw [DevLineSensor.filterBias, h, smooth]
  norm_num

theorem filterBias_mem {sensor : DevLineSensor ℝ} {rawBias : ℝ}
    (hraw : -1 ≤ rawBias ∧ rawBias ≤ 1)
    (hbias : -1 ≤ sensor.frame.bias ∧ sensor.frame.bias ≤ 1) :
    -1 ≤ sensor.filterBias rawBias ∧ sensor.filterBias rawBias ≤ 1 := by
  obtain ⟨hpos, hle⟩ := getAlpha_mem sensor.config
  cases hprimed : sensor.biasPrimed with
  | false =>
      rw [filterBias_of_unprimed hprimed]
      exact hraw
  | true =>
      rw [filterBias_of_primed hprimed]
      exact smooth_mem hpos.le hle hraw hbias

end Filter

/-! ### The invariant -/

/-- Bias and last bias are in `[-1, 1]`. -/
structure Normalised (sensor : DevLineSensor ℝ) : Prop where
  bias : -1 ≤ sensor.frame.bias ∧ sensor.frame.bias ≤ 1
  lastBias : -1 ≤ sensor.frame.lastBias ∧ sensor.frame.lastBias ≤ 1

open DevLineSensor

theorem normalised_empty {sensor : DevLineSensor ℝ} {count : ℕ}
    (h : sensor.frame = emptyFrame count) : Normalised sensor := by
  have hzero : ((-1 : ℝ) ≤ 0.0) ∧ ((0.0 : ℝ) ≤ 1) := by norm_num
  exact ⟨h ▸ hzero, h ▸ hzero⟩

theorem Normalised.update {sensor : DevLineSensor ℝ} (h : Normalised sensor) (b : Board) :
    Normalised (devLineSensorUpdate sensor b) := by
  by_cases hcount : getCount sensor.config = 0
  · rw [devLineSensorUpdate, if_pos hcount]
    exact ⟨h.bias, h.lastBias⟩
  · rw [devLineSensorUpdate_eq sensor b hcount]
    split_ifs with hdivides
    · have hbias := filterBias_mem (rawBias_mem hdivides) h.bias
      exact ⟨hbias, hbias⟩
    · exact ⟨h.lastBias, h.lastBias⟩

/-- After an update that sees a channel the bias is the last bias. -/
theorem bias_eq_lastBias {F : Type*} [CFloat F] (sensor : DevLineSensor F) (b : Board)
    (hcount : getCount sensor.config ≠ 0) :
    (devLineSensorUpdate sensor b).frame.bias = (devLineSensorUpdate sensor b).frame.lastBias := by
  rw [devLineSensorUpdate_eq sensor b hcount]
  split_ifs <;> rfl

/-- An update that does not report the line holds the last bias. -/
theorem lastBias_of_lost {F : Type*} [CFloat F] {sensor : DevLineSensor F} {b : Board}
    (h : (devLineSensorUpdate sensor b).frame.onLine = false) :
    (devLineSensorUpdate sensor b).frame.lastBias = sensor.frame.lastBias := by
  by_cases hcount : getCount sensor.config = 0
  · rw [devLineSensorUpdate, if_pos hcount]
  · rw [devLineSensorUpdate_eq sensor b hcount] at h ⊢
    split_ifs at h ⊢ with hdivides
    · exact absurd hdivides.1 (by simpa using h)
    · rfl

/-! ### Readings of 16 bits -/

theorem getCount_le {F : Type*} (config : DevLineSensorConfig F) :
    getCount config ≤ drvLineSensorMaxCount := by
  rw [getCount]
  split
  · rw [drvLineSensorCount]
    split <;> omega
  · rw [clampCount]
    split <;> omega

/-- The source of the readings delivers 16-bit values. -/
structure DevLineSensorConfig.SixteenBit {F : Type*} (config : DevLineSensorConfig F) : Prop where
  array : ∀ array, config.array = some array → array.activeRaw < 2 ^ 16 ∧ array.inactiveRaw < 2 ^ 16
  callback : ∀ readRaw, config.readRaw = some readRaw →
    ∀ b count, ∀ v ∈ readRaw b count, v < 2 ^ 16

theorem mem_clearUnusedRaw {raw : List ℕ} {count v : ℕ} (h : v ∈ clearUnusedRaw raw count) :
    v = 0 ∨ v ∈ raw := by
  obtain ⟨i, -, rfl⟩ := List.mem_map.mp h
  split
  · rw [List.getD_eq_getElem?_getD]
    cases hi : raw[i]? with
    | none => exact Or.inl rfl
    | some v => exact Or.inr (List.mem_of_getElem? hi)
  · exact Or.inl rfl

section SixteenBit

variable {F : Type*} {sensor : DevLineSensor F}
  (h16 : sensor.config.SixteenBit) (hraw : ∀ v ∈ sensor.frame.raw, v < 2 ^ 16)
include h16 hraw

theorem readings_lt (b : Board) : ∀ v ∈ sensor.readings b, v < 2 ^ 16 := by
  intro v hv
  rw [DevLineSensor.readings] at hv
  split at hv
  · exact h16.callback _ ‹_› _ _ v hv
  · -- an array channel reads one of the two levels
    obtain ⟨i, -, rfl⟩ := List.mem_map.mp hv
    obtain ⟨hactive, hinactive⟩ := h16.array _ ‹_›
    split
    · exact hactive
    · exact hinactive
  · exact hraw v hv

theorem raw_sample_lt [CFloat F] (b : Board) : ∀ v ∈ (sensor.sample b).raw, v < 2 ^ 16 := by
  intro v hv
  rcases mem_clearUnusedRaw hv with rfl | hv
  · exact Nat.two_pow_pos 16
  · exact readings_lt h16 hraw b v hv

theorem raw_update_lt [CFloat F] (b : Board) :
    ∀ v ∈ (devLineSensorUpdate sensor b).frame.raw, v < 2 ^ 16 := by
  intro v hv
  by_cases hcount : getCount sensor.config = 0
  · rw [devLineSensorUpdate, if_pos hcount] at hv
    rcases mem_clearUnusedRaw hv with rfl | hv
    · exact Nat.two_pow_pos 16
    · exact hraw v hv
  · have hsample : (devLineSensorUpdate sensor b).frame.raw = (sensor.sample b).raw := by
      rw [devLineSensorUpdate_eq sensor b hcount]
      split <;> rfl
    rw [hsample] at hv
    exact raw_sample_lt h16 hraw b v hv

end SixteenBit

/-! ### The sensor of the car -/

/-- The pin levels with the line under channel `i` alone, if there is such a channel. -/
def lineUnder (i : ℕ) (pin : Pin) : Bool := (sLineSensors.channels[i]?).any (·.pin = pin)

/-- What the car reads then. -/
def readUnder (i : ℕ) : List ℕ :=
  clearUnusedRaw (drvLineSensorReadRaw sLineSensors { Board.atReset with input := lineUnder i }
    bspAdcCcdCount) bspAdcCcdCount

theorem readUnder_eq : ∀ i ≤ bspAdcCcdCount,
    readUnder i = (List.range drvLineSensorMaxCount).map fun j =>
      if j = i ∧ i < bspAdcCcdCount then 4095 else 0 := by
  decide

theorem levels_readUnder : ∀ i ≤ bspAdcCcdCount,
    lowest (readUnder i) bspAdcCcdCount = 0 ∧
      highest (readUnder i) bspAdcCcdCount = (if i < bspAdcCcdCount then 4095 else 0) ∧
      ∀ j < bspAdcCcdCount,
        (readUnder i).getD j 0 = if j = i ∧ i < bspAdcCcdCount then 4095 else 0 := by
  intro i hi
  rw [readUnder_eq i hi]
  revert i
  decide

section Car

variable {sensor : DevLineSensor ℝ} (hconfig : sensor.config = sLineSensorConfig) {b : Board}
  {i : ℕ} (hb : b.input = lineUnder i)
include hconfig hb

theorem sample_lineUnder (hi : i ≤ bspAdcCcdCount) :
    (sensor.sample b).count = bspAdcCcdCount ∧ (sensor.sample b).minValue = 0 ∧
      (sensor.sample b).maxValue = (if i < bspAdcCcdCount then 4095 else 0) ∧
      ∀ j < bspAdcCcdCount,
        (sensor.sample b).profile j = if j = i ∧ i < bspAdcCcdCount then 4095 else 0 := by
  have hcount : (sensor.sample b).count = bspAdcCcdCount := by
    show getCount sensor.config = bspAdcCcdCount
    rw [hconfig]
    rfl
  have hreadings : sensor.readings b =
      drvLineSensorReadRaw sLineSensors { Board.atReset with input := b.input } bspAdcCcdCount := by
    rw [DevLineSensor.readings, hconfig]
    rfl
  have hraw : (sensor.sample b).raw = readUnder i := by
    show clearUnusedRaw (sensor.readings b) (getCount sensor.config) = readUnder i
    rw [hreadings, hb, hconfig]
    rfl
  obtain ⟨hlow, hhigh, hread⟩ := levels_readUnder i hi
  have hmin : (sensor.sample b).minValue = 0 := by
    show lowest (sensor.sample b).raw (sensor.sample b).count = 0
    rw [hraw, hcount, hlow]
  have hmax : (sensor.sample b).maxValue = if i < bspAdcCcdCount then 4095 else 0 := by
    show highest (sensor.sample b).raw (sensor.sample b).count = _
    rw [hraw, hcount, hhigh]
  refine ⟨hcount, hmin, hmax, fun j hj => ?_⟩
  rw [DevLineSensorFrame.profile, hraw, hmin, Nat.sub_zero, hread j hj]

theorem strength_lineUnder (hi : i ≤ bspAdcCcdCount) :
    (sensor.sample b).strengthAfter bspAdcCcdCount = if i < bspAdcCcdCount then 4095 else 0 := by
  obtain ⟨-, -, -, hprofile⟩ := sample_lineUnder hconfig hb hi
  rw [strengthAfter_eq_mass, mass, Finset.sum_congr rfl fun j hj =>
    hprofile j (Finset.mem_range.mp hj)]
  by_cases hlt : i < bspAdcCcdCount
  · simp [hlt]
  · simp [hlt]

/-- The line under a channel is found at the place of the channel. -/
theorem rawBias_lineUnder (hi : i < bspAdcCcdCount) :
    (sensor.sample b).Divides ∧ (sensor.sample b).rawBias = (i - 3) / 3 := by
  obtain ⟨hcount, hmin, hmax, hprofile⟩ := sample_lineUnder hconfig hb hi.le
  have hstrength := strength_lineUnder hconfig hb hi.le
  have hone : 1 < getCount sensor.config := by
    rw [hconfig]
    decide
  have honline : (sensor.sample b).onLine = true := by
    rw [onLine_sample, hmin, hmax, hcount, hstrength, if_pos hi, hconfig]
    rfl
  have hweighted : (sensor.sample b).weightedAfter bspAdcCcdCount = 4095 * (2 * i - 6) := by
    rw [weightedAfter_eq_moment, moment, hcount, Finset.sum_eq_single i]
    · rw [hprofile i hi, if_pos ⟨rfl, hi⟩, place, bspAdcCcdCount]
      push_cast
      ring
    · intro j hj hji
      rw [hprofile j (Finset.mem_range.mp hj), if_neg fun h => hji h.1, Nat.cast_zero, mul_zero]
    · intro hnot
      exact absurd (Finset.mem_range.mpr hi) hnot
  refine ⟨divides_of_onLine hone honline, ?_⟩
  rw [DevLineSensorFrame.rawBias, DevLineSensorFrame.divisor, hcount, hstrength, hweighted,
    if_pos hi, bspAdcCcdCount]
  push_cast
  ring

theorem update_lineUnder (hi : i < bspAdcCcdCount) :
    (devLineSensorUpdate sensor b).frame.onLine = true ∧
      (devLineSensorUpdate sensor b).frame.bias = sensor.filterBias ((i - 3) / 3) ∧
      (devLineSensorUpdate sensor b).biasPrimed = true := by
  obtain ⟨hdivides, hraw⟩ := rawBias_lineUnder hconfig hb hi
  have hne : getCount sensor.config ≠ 0 := by
    rw [hconfig]
    decide
  rw [devLineSensorUpdate_eq sensor b hne, if_pos hdivides, hraw]
  exact ⟨hdivides.1, rfl, rfl⟩

/-- Without a line under any channel the line is lost. -/
theorem lost_of_dark (hi : i = bspAdcCcdCount) :
    (devLineSensorUpdate sensor b).frame.onLine = false := by
  obtain ⟨hcount, hmin, hmax, -⟩ := sample_lineUnder hconfig hb hi.le
  have hlost : (sensor.sample b).onLine = false := by
    rw [onLine_sample, hmin, hmax, if_neg hi.not_lt, hconfig]
    rfl
  have hne : getCount sensor.config ≠ 0 := by
    rw [hconfig]
    decide
  rw [devLineSensorUpdate_eq sensor b hne, if_neg fun h => ?_]
  · exact hlost
  · rw [DevLineSensorFrame.Divides, hlost] at h
    cases h.1

end Car

/-! ### Runs of the sensor -/

namespace LinePosition

/-- The calls that change the sensor. -/
inductive SensorCall
  | update (b : Board)
  | reset

def step {F : Type*} [CFloat F] (sensor : DevLineSensor F) : SensorCall → DevLineSensor F
  | .update b => devLineSensorUpdate sensor b
  | .reset => devLineSensorReset sensor

/-- What is asked of a call: the sums of an update fit in their variables and its
division is not by zero; the bias is then the last bias, which only a frame on the line
has changed. -/
def Sound (sensor : DevLineSensor ℝ) : SensorCall → Prop
  | .update b =>
      (sensor.sample b).SumsFit ∧
        ((sensor.sample b).Divides → (sensor.sample b).divisor ≠ 0) ∧
        (getCount sensor.config ≠ 0 →
          (devLineSensorUpdate sensor b).frame.bias =
            (devLineSensorUpdate sensor b).frame.lastBias) ∧
        ((devLineSensorUpdate sensor b).frame.lastBias ≠ sensor.frame.lastBias →
          (devLineSensorUpdate sensor b).frame.onLine = true)
  | .reset => True

/-- The invariant. -/
structure Inv (config : DevLineSensorConfig ℝ) (sensor : DevLineSensor ℝ) : Prop where
  config : sensor.config = config
  normalised : Normalised sensor
  raw : ∀ v ∈ sensor.frame.raw, v < 2 ^ 16

theorem inv_empty {config : DevLineSensorConfig ℝ} {sensor : DevLineSensor ℝ}
    (hconfig : sensor.config = config) (hframe : sensor.frame = emptyFrame (getCount config)) :
    Inv config sensor where
  config := hconfig
  normalised := normalised_empty hframe
  raw v hv := by
    rw [hframe] at hv
    rw [List.eq_of_mem_replicate hv]
    exact Nat.two_pow_pos 16

section Step

variable {config : DevLineSensorConfig ℝ} (h16 : config.SixteenBit) {sensor : DevLineSensor ℝ}
  (h : Inv config sensor)
include h16 h

theorem inv_step (call : SensorCall) : Inv config (step sensor call) := by
  obtain ⟨rfl, hnormalised, hraw⟩ := h
  cases call with
  | update b =>
      exact ⟨config_devLineSensorUpdate sensor b, hnormalised.update b, raw_update_lt h16 hraw b⟩
  | reset => exact inv_empty rfl rfl

theorem sound_step (call : SensorCall) : Sound sensor call := by
  obtain ⟨rfl, -, hraw⟩ := h
  cases call with
  | update b =>
      refine ⟨?_, divisor_ne_zero, bias_eq_lastBias sensor b, ?_⟩
      · refine sumsFit (getCount_le sensor.config) fun i => ?_
        have hread : (sensor.sample b).raw.getD i 0 < 2 ^ 16 := by
          rw [List.getD_eq_getElem?_getD]
          cases hi : (sensor.sample b).raw[i]? with
          | none => exact Nat.two_pow_pos 16
          | some v => exact raw_sample_lt h16 hraw b v (List.mem_of_getElem? hi)
        exact (Nat.sub_le _ _).trans_lt hread
      · intro hchanged
        by_contra hlost
        exact hchanged (lastBias_of_lost (Bool.not_eq_true _ ▸ hlost))
  | reset => trivial

end Step

/-- In exact arithmetic, for every configuration with 16-bit readings and every sequence
of updates and resets: bias and last bias stay in `[-1, 1]`, and every call is sound. -/
theorem line_position_normalised (config : DevLineSensorConfig ℝ) (h16 : config.SixteenBit)
    (calls : List SensorCall) :
    EachState step Normalised (devLineSensorInit config) calls ∧
      EachStep step Sound (devLineSensorInit config) calls := by
  have hinit : Inv config (devLineSensorInit config) := inv_empty rfl rfl
  have hstep (sensor : DevLineSensor ℝ) (call : SensorCall) (h : Inv config sensor) :
      Inv config (step sensor call) := inv_step h16 h call
  refine ⟨?_, EachStep.of_invariant hstep (fun _ call h => sound_step h16 h call) hinit⟩
  rintro pre post -
  exact (exec_invariant hstep hinit pre).normalised

/-- Two channels behind a callback, first the right one bright and then the left one. -/
noncomputable def pairConfig : DevLineSensorConfig ℝ where
  array := none
  readRaw := some fun b _ => if b.gTickMs = 0 then [0, 65535] else [65535, 0]
  count := 2
  contrastThreshold := 0
  strengthThreshold := 0
  biasAlpha := 0.5

/-- The second update finds the filter primed. -/
def pairCalls : List SensorCall :=
  [.update Board.atReset, .update { Board.atReset with gTickMs := 10 }, .reset]

theorem line_position_pair :
    EachState step Normalised (devLineSensorInit pairConfig) pairCalls ∧
      EachStep step Sound (devLineSensorInit pairConfig) pairCalls := by
  refine line_position_normalised pairConfig ⟨fun _ h => ?_, fun _ h => ?_⟩ _
  · cases h
  · cases h
    intro b count
    dsimp only
    split <;> simp

end LinePosition

end NuedcFirmware.Modules
