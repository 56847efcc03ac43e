import NuedcFirmware.Lib.Extremum
import NuedcFirmware.Lib.Trace
import NuedcFirmware.Modules.LinePosition

/-!
The line position has no preference.

Two sensors of one configuration are compared whose callbacks deliver the same frames seen
from the other end, or the same frames with another brightness. The profiles are then the
same from the other end, or the same: mass and contrast agree, and the moment has changed
its sign, or has not. Filter and memory are linear, so a relation of the two sensors is
kept by every call (`Linked.step`), once for both comparisons.
-/

namespace NuedcFirmware.Modules.LineSymmetry

open NuedcFirmware.Lib NuedcFirmware.Platform
open DevLineSensor LinePosition

/-- The configuration, fed by a callback. -/
def fedBy {F : Type*} (config : DevLineSensorConfig F) (read : Board → ℕ → List ℕ) :
    DevLineSensorConfig F :=
  { config with readRaw := some read }

/-- What the frames of two sensors are compared by. -/
structure Position where
  contrast : ℕ
  strength : ℕ
  onLine : Bool
  bias : ℝ
  lastBias : ℝ

def position (sensor : DevLineSensor ℝ) : Position where
  contrast := sensor.frame.contrast
  strength := sensor.frame.strength
  onLine := sensor.frame.onLine
  bias := sensor.frame.bias
  lastBias := sensor.frame.lastBias

/-- The position with both biases times `sign`. -/
def Position.scale (sign : ℤ) (p : Position) : Position :=
  { p with bias := sign * p.bias, lastBias := sign * p.lastBias }

/-- A frame of `n` channels and the frame seen from the other end. -/
def Mirrored (n : ℕ) (raw raw' : List ℕ) : Prop :=
  ∀ i < n, raw'.getD i 0 = raw.getD (n - 1 - i) 0

/-- A frame of `n` channels and the frame with an offset on all of them. -/
def Shifted (n : ℕ) (raw raw' : List ℕ) : Prop :=
  ∃ offset : ℤ, ∀ i < n, (raw'.getD i 0 : ℤ) = raw.getD i 0 + offset

section Calls

variable (related : List ℕ → List ℕ → Prop) (n : ℕ) (read read' : Board → ℕ → List ℕ)

/-- Two calls that feed related frames. -/
inductive Paired : SensorCall → SensorCall → Prop
  | update {b b' : Board} (h : related (read b n) (read' b' n)) : Paired (.update b) (.update b')
  | reset : Paired .reset .reset

end Calls

/-! ### Two profiles -/

section Profiles

variable {n : ℕ} {raw raw' : List ℕ}

variable (raw) in
theorem lowest_mem (hn : 0 < n) :
    IsLeast ((fun i => raw.getD i 0) '' Set.Iio n) (lowest raw n) :=
  isLeast_foldl_min _ hn

variable (raw) in
theorem highest_mem (hn : 0 < n) :
    IsGreatest ((fun i => raw.getD i 0) '' Set.Iio n) (highest raw n) :=
  isGreatest_foldl_max _ hn

/-- What an update computes from its frame agrees, but for the sign of the moment. -/
structure SameProfile (sign : ℤ) (n : ℕ) (raw raw' : List ℕ) : Prop where
  contrast : highest raw' n - lowest raw' n = highest raw n - lowest raw n
  mass : mass (fun i => raw'.getD i 0 - lowest raw' n) n =
    mass (fun i => raw.getD i 0 - lowest raw n) n
  moment : moment n (fun i => ((raw'.getD i 0 - lowest raw' n : ℕ) : ℤ)) n =
    sign * moment n (fun i => ((raw.getD i 0 - lowest raw n : ℕ) : ℤ)) n

theorem Mirrored.sameProfile (hn : 0 < n) (h : Mirrored n raw raw') :
    SameProfile (-1) n raw raw' := by
  have hvalues : (fun i => raw'.getD i 0) '' Set.Iio n = (fun i => raw.getD i 0) '' Set.Iio n := by
    ext v
    simp only [Set.mem_image, Set.mem_Iio]
    constructor
    · rintro ⟨i, hi, rfl⟩
      exact ⟨n - 1 - i, by omega, (h i hi).symm⟩
    · rintro ⟨i, hi, rfl⟩
      refine ⟨n - 1 - i, by omega, ?_⟩
      rw [h _ (by omega), show n - 1 - (n - 1 - i) = i by omega]
  have hlowest : lowest raw' n = lowest raw n :=
    (lowest_mem raw' hn).unique (hvalues ▸ lowest_mem raw hn)
  have hhighest : highest raw' n = highest raw n :=
    (highest_mem raw' hn).unique (hvalues ▸ highest_mem raw hn)
  refine ⟨by rw [hlowest, hhighest], ?_, ?_⟩
  · rw [hlowest, ← mass_reflect fun i => raw.getD i 0 - lowest raw n]
    exact mass_congr fun i hi => by rw [h i hi]
  · rw [hlowest, neg_one_mul, ← moment_reflect]
    exact moment_congr fun i hi => by rw [h i hi]

theorem Shifted.sameProfile (hn : 0 < n) (h : Shifted n raw raw') : SameProfile 1 n raw raw' := by
  obtain ⟨offset, h⟩ := h
  -- the least reading is the reading of some channel, and that is moved
  have hlowest : (lowest raw' n : ℤ) = lowest raw n + offset := by
    obtain ⟨⟨i, hi, hleast⟩, hlower⟩ := lowest_mem raw hn
    obtain ⟨⟨j, hj, hleast'⟩, hlower'⟩ := lowest_mem raw' hn
    have hle := hlower ⟨j, hj, rfl⟩
    have hle' := hlower' ⟨i, hi, rfl⟩
    have hi' := h i hi
    have hj' := h j hj
    simp only at hleast hleast' hle hle'
    omega
  have hhighest : (highest raw' n : ℤ) = highest raw n + offset := by
    obtain ⟨⟨i, hi, hgreatest⟩, hupper⟩ := highest_mem raw hn
    obtain ⟨⟨j, hj, hgreatest'⟩, hupper'⟩ := highest_mem raw' hn
    have hle := hupper ⟨j, hj, rfl⟩
    have hle' := hupper' ⟨i, hi, rfl⟩
    have hi' := h i hi
    have hj' := h j hj
    simp only at hgreatest hgreatest' hle hle'
    omega
  have hprofile : ∀ i < n, raw'.getD i 0 - lowest raw' n = raw.getD i 0 - lowest raw n := by
    intro i hi
    have hi' := h i hi
    omega
  refine ⟨by omega, mass_congr hprofile, ?_⟩
  rw [one_mul]
  exact moment_congr fun i hi => by rw [hprofile i hi]

end Profiles

theorem getD_clearUnusedRaw (raw : List ℕ) {n i : ℕ} (hi : i < n) (hn : n ≤ drvLineSensorMaxCount) :
    (clearUnusedRaw raw n).getD i 0 = raw.getD i 0 := by
  have hmax : i < drvLineSensorMaxCount := hi.trans_le hn
  simp [clearUnusedRaw, hmax, hi]

theorem Mirrored.clearUnusedRaw {n : ℕ} {raw raw' : List ℕ} (h : Mirrored n raw raw')
    (hn : n ≤ drvLineSensorMaxCount) :
    Mirrored n (DevLineSensor.clearUnusedRaw raw n) (DevLineSensor.clearUnusedRaw raw' n) := by
  intro i hi
  rw [getD_clearUnusedRaw raw' hi hn, getD_clearUnusedRaw raw (by omega) hn]
  exact h i hi

theorem Shifted.clearUnusedRaw {n : ℕ} {raw raw' : List ℕ} (h : Shifted n raw raw')
    (hn : n ≤ drvLineSensorMaxCount) :
    Shifted n (DevLineSensor.clearUnusedRaw raw n) (DevLineSensor.clearUnusedRaw raw' n) := by
  obtain ⟨offset, h⟩ := h
  refine ⟨offset, fun i hi => ?_⟩
  rw [getD_clearUnusedRaw raw' hi hn, getD_clearUnusedRaw raw hi hn]
  exact h i hi

/-! ### Two sensors -/

section Sensors

variable {config : DevLineSensorConfig ℝ} {read read' : Board → ℕ → List ℕ} {sign : ℤ}

/-- Two sensors that agree, but for the sign of their biases. -/
structure Linked (settings : DevLineSensorConfig ℝ) (read read' : Board → ℕ → List ℕ) (sign : ℤ)
    (s s' : DevLineSensor ℝ) : Prop where
  config : s.config = fedBy settings read
  config' : s'.config = fedBy settings read'
  primed : s'.biasPrimed = s.biasPrimed
  bias : s'.frame.bias = sign * s.frame.bias
  lastBias : s'.frame.lastBias = sign * s.frame.lastBias

theorem linked_empty {s s' : DevLineSensor ℝ} (hconfig : s.config = fedBy config read)
    (hconfig' : s'.config = fedBy config read') (hframe : s.frame = emptyFrame (getCount config))
    (hframe' : s'.frame = emptyFrame (getCount config)) (hprimed : s'.biasPrimed = s.biasPrimed) :
    Linked config read read' sign s s' := by
  refine ⟨hconfig, hconfig', hprimed, ?_, ?_⟩ <;>
  · rw [hframe, hframe']
    norm_num [emptyFrame]

/-- The two samples of an update, where their profiles are the same. -/
structure SameSample (sign : ℤ) (f f' : DevLineSensorFrame ℝ) : Prop where
  count : f'.count = f.count
  contrast : f'.contrast = f.contrast
  strength : f'.strength = f.strength
  onLine : f'.onLine = f.onLine
  divides : f'.Divides ↔ f.Divides
  rawBias : f'.rawBias = sign * f.rawBias
  lastBias : f'.lastBias = sign * f.lastBias

theorem Linked.sameSample {s s' : DevLineSensor ℝ} (h : Linked config read read' sign s s')
    {b b' : Board}
    (hprofile : SameProfile sign (getCount config)
      (clearUnusedRaw (read b (getCount config)) (getCount config))
      (clearUnusedRaw (read' b' (getCount config)) (getCount config))) :
    SameSample sign (s.sample b) (s'.sample b') := by
  obtain ⟨hcontrast, hmass, hmoment⟩ := hprofile
  obtain ⟨hconfig, hconfig', -, -, hlastBias⟩ := h
  obtain ⟨sconfig, sframe, sprimed⟩ := s
  obtain ⟨sconfig', sframe', sprimed'⟩ := s'
  subst hconfig hconfig'
  set f := (DevLineSensor.mk (fedBy config read) sframe sprimed).sample b with hf
  set f' := (DevLineSensor.mk (fedBy config read') sframe' sprimed').sample b' with hf'
  have hstrength : f'.strengthAfter (getCount config) = f.strengthAfter (getCount config) := by
    rw [strengthAfter_eq_mass, strengthAfter_eq_mass]
    exact hmass
  have hweighted :
      f'.weightedAfter (getCount config) = sign * f.weightedAfter (getCount config) := by
    rw [weightedAfter_eq_moment, weightedAfter_eq_moment]
    exact hmoment
  have honLine : f'.onLine = f.onLine := by
    have hcontrast' : f'.maxValue - f'.minValue = f.maxValue - f.minValue := hcontrast
    rw [hf, hf', onLine_sample, onLine_sample, ← hf, ← hf', decide_eq_decide, hcontrast']
    show (_ ∧ clampU16 (f'.strengthAfter (getCount config)) ≥ _) ↔ _
    rw [hstrength]
    rfl
  refine ⟨rfl, hcontrast, congrArg clampU16 hstrength, honLine, ?_, ?_, hlastBias⟩
  · rw [DevLineSensorFrame.Divides, DevLineSensorFrame.Divides, honLine]
    show (_ ∧ f'.strengthAfter (getCount config) ≠ 0 ∧ _) ↔ _
    rw [hstrength]
    rfl
  · show (f'.weightedAfter (getCount config) : ℝ) /
      (((f'.strengthAfter (getCount config) : ℤ) : ℝ) * _) = _
    rw [hstrength, hweighted, Int.cast_mul, mul_div_assoc]
    rfl

theorem Linked.filterBias {s s' : DevLineSensor ℝ} (h : Linked config read read' sign s s')
    (rawBias : ℝ) : s'.filterBias (sign * rawBias) = sign * s.filterBias rawBias := by
  cases hprimed : s.biasPrimed with
  | false => rw [filterBias_of_unprimed hprimed, filterBias_of_unprimed (h.primed.trans hprimed)]
  | true =>
      have halpha : getAlpha s'.config = getAlpha s.config := by
        rw [h.config, h.config']
        rfl
      rw [filterBias_of_primed hprimed, filterBias_of_primed (h.primed.trans hprimed), halpha,
        h.bias, smooth, smooth]
      ring

/-- An update of both sensors with such frames. -/
theorem Linked.update {s s' : DevLineSensor ℝ} (h : Linked config read read' sign s s')
    {b b' : Board}
    (hprofile : 0 < getCount config → SameProfile sign (getCount config)
      (clearUnusedRaw (read b (getCount config)) (getCount config))
      (clearUnusedRaw (read' b' (getCount config)) (getCount config))) :
    Linked config read read' sign (devLineSensorUpdate s b) (devLineSensorUpdate s' b') ∧
      position (devLineSensorUpdate s' b') =
        (position (devLineSensorUpdate s b)).scale sign := by
  have hcount : getCount s.config = getCount config := by
    rw [h.config]
    rfl
  have hcount' : getCount s'.config = getCount config := by
    rw [h.config']
    rfl
  by_cases hzero : getCount config = 0
  · -- without a channel the biases stay
    rw [devLineSensorUpdate, if_pos (hcount.trans hzero), devLineSensorUpdate,
      if_pos (hcount'.trans hzero)]
    refine ⟨⟨h.config, h.config', h.primed, h.bias, h.lastBias⟩, ?_⟩
    rw [position, position, Position.scale, Position.mk.injEq]
    exact ⟨rfl, rfl, rfl, h.bias, h.lastBias⟩
  · have hsame := h.sameSample (hprofile (Nat.pos_of_ne_zero hzero))
    rw [devLineSensorUpdate_eq s b (hcount ▸ hzero), devLineSensorUpdate_eq s' b' (hcount' ▸ hzero)]
    by_cases hdivides : (s.sample b).Divides
    · have hbias : s'.filterBias (s'.sample b').rawBias =
          sign * s.filterBias (s.sample b).rawBias := by
        rw [hsame.rawBias, h.filterBias]
      rw [if_pos hdivides, if_pos (hsame.divides.mpr hdivides)]
      refine ⟨⟨h.config, h.config', rfl, hbias, hbias⟩, ?_⟩
      rw [position, position, Position.scale, Position.mk.injEq]
      exact ⟨hsame.contrast, hsame.strength, hsame.onLine, hbias, hbias⟩
    · rw [if_neg hdivides, if_neg fun hdivides' => hdivides (hsame.divides.mp hdivides')]
      refine ⟨⟨h.config, h.config', h.primed, hsame.lastBias, hsame.lastBias⟩, ?_⟩
      rw [position, position, Position.scale, Position.mk.injEq]
      exact ⟨hsame.contrast, hsame.strength, hsame.onLine, hsame.lastBias, hsame.lastBias⟩

/-- A call of both sensors. -/
theorem Linked.step {related : List ℕ → List ℕ → Prop}
    (hrelated : ∀ raw raw', 0 < getCount config → related raw raw' →
      SameProfile sign (getCount config) (clearUnusedRaw raw (getCount config))
        (clearUnusedRaw raw' (getCount config)))
    {s s' : DevLineSensor ℝ} {call call' : SensorCall}
    (h : Linked config read read' sign s s')
    (hcalls : Paired related (getCount config) read read' call call') :
    Linked config read read' sign (step s call) (step s' call') ∧
      position (step s' call') = (position (step s call)).scale sign := by
  cases hcalls with
  | update hframes => exact h.update fun hn => hrelated _ _ hn hframes
  | reset =>
      have hframe : (devLineSensorReset s).frame = emptyFrame (getCount config) := by
        rw [devLineSensorReset, h.config]
        rfl
      have hframe' : (devLineSensorReset s').frame = emptyFrame (getCount config) := by
        rw [devLineSensorReset, h.config']
        rfl
      have hlinked : Linked config read read' sign (devLineSensorReset s) (devLineSensorReset s') :=
        linked_empty h.config h.config' hframe hframe' rfl
      refine ⟨hlinked, ?_⟩
      show position (devLineSensorReset s') = (position (devLineSensorReset s)).scale sign
      rw [position, position, Position.scale, Position.mk.injEq]
      refine ⟨?_, ?_, ?_, hlinked.bias, hlinked.lastBias⟩ <;> rw [hframe, hframe']

variable (sign) in
/-- Whole runs of both sensors. -/
theorem forall₂_position {related : List ℕ → List ℕ → Prop}
    (hrelated : ∀ raw raw', 0 < getCount config → related raw raw' →
      SameProfile sign (getCount config) (clearUnusedRaw raw (getCount config))
        (clearUnusedRaw raw' (getCount config)))
    {calls calls' : List SensorCall}
    (hcalls : List.Forall₂ (Paired related (getCount config) read read') calls calls') :
    List.Forall₂ (fun p p' => p' = p.scale sign)
      (trace step position (devLineSensorInit (fedBy config read)) calls)
      (trace step position (devLineSensorInit (fedBy config read')) calls') := by
  have hinit : Linked config read read' sign (devLineSensorInit (fedBy config read))
      (devLineSensorInit (fedBy config read')) := linked_empty rfl rfl rfl rfl rfl
  exact forall₂_trace (R := Linked config read read' sign)
    (E := Paired related (getCount config) read read')
    (fun _ _ _ _ h hcall => (h.step hrelated hcall).1)
    (fun _ _ _ _ h hcall => (h.step hrelated hcall).2) hinit hcalls

end Sensors

/-- In exact arithmetic, for every sensor fed by a callback and every sequence of updates
and resets: where the frames are mirrored, contrast, strength and on_line stay and bias and
last bias are negated, at every step; where each frame has an offset of its own, all of them
stay. -/
theorem position_symmetric (config : DevLineSensorConfig ℝ) (read read' : Board → ℕ → List ℕ)
    (calls calls' : List SensorCall) :
    (List.Forall₂ (Paired (Mirrored (getCount config)) (getCount config) read read') calls calls' →
      List.Forall₂ (fun p p' => p' = { p with bias := -p.bias, lastBias := -p.lastBias })
        (trace step position (devLineSensorInit (fedBy config read)) calls)
        (trace step position (devLineSensorInit (fedBy config read')) calls')) ∧
    (List.Forall₂ (Paired (Shifted (getCount config)) (getCount config) read read') calls calls' →
      trace step position (devLineSensorInit (fedBy config read')) calls' =
        trace step position (devLineSensorInit (fedBy config read)) calls) := by
  have hle : getCount config ≤ drvLineSensorMaxCount := getCount_le config
  refine ⟨fun hcalls => ?_, fun hcalls => ?_⟩
  · have hmirrored := forall₂_position (-1)
      (fun _ _ hn h => (Mirrored.clearUnusedRaw h hle).sameProfile hn) hcalls
    simpa [Position.scale] using hmirrored
  · have hshifted := forall₂_position 1
      (fun _ _ hn h => (Shifted.clearUnusedRaw h hle).sameProfile hn) hcalls
    simp only [Position.scale, Int.cast_one, one_mul] at hshifted
    exact (List.forall₂_eq_eq_eq ▸ hshifted.flip : _)

/-- Four channels behind a callback. -/
noncomputable def quadConfig : DevLineSensorConfig ℝ where
  array := none
  readRaw := none
  count := 4
  contrastThreshold := 0
  strengthThreshold := 0
  biasAlpha := 0.5

/-- A line under the first channel, then one under the third. -/
def moving (b : Board) (_ : ℕ) : List ℕ :=
  if b.gTickMs = 0 then [900, 100, 100, 100] else [40, 40, 740, 40]

def movingMirrored (b : Board) (_ : ℕ) : List ℕ :=
  if b.gTickMs = 0 then [100, 100, 100, 900] else [40, 740, 40, 40]

/-- The first frame darker by 50, the second one brighter by 7. -/
def movingShifted (b : Board) (_ : ℕ) : List ℕ :=
  if b.gTickMs = 0 then [850, 50, 50, 50] else [47, 47, 747, 47]

/-- The second update finds the filter primed, the one after the reset does not. -/
def movingCalls : List SensorCall :=
  [.update Board.atReset, .update { Board.atReset with gTickMs := 10 }, .reset,
    .update { Board.atReset with gTickMs := 10 }]

theorem position_symmetric_moving :
    List.Forall₂ (fun p p' => p' = { p with bias := -p.bias, lastBias := -p.lastBias })
        (trace step position (devLineSensorInit (fedBy quadConfig moving)) movingCalls)
        (trace step position (devLineSensorInit (fedBy quadConfig movingMirrored)) movingCalls) ∧
      trace step position (devLineSensorInit (fedBy quadConfig movingShifted)) movingCalls =
        trace step position (devLineSensorInit (fedBy quadConfig moving)) movingCalls := by
  refine ⟨(position_symmetric quadConfig moving movingMirrored movingCalls movingCalls).1 ?_,
    (position_symmetric quadConfig moving movingShifted movingCalls movingCalls).2 ?_⟩
  · have hfirst : Mirrored 4 [900, 100, 100, 100] [100, 100, 100, 900] := by
      rw [Mirrored]
      decide
    have hsecond : Mirrored 4 [40, 40, 740, 40] [40, 740, 40, 40] := by
      rw [Mirrored]
      decide
    exact .cons (.update hfirst)
      (.cons (.update hsecond) (.cons .reset (.cons (.update hsecond) .nil)))
  · have hfirst : Shifted 4 [900, 100, 100, 100] [850, 50, 50, 50] := ⟨-50, by decide⟩
    have hsecond : Shifted 4 [40, 40, 740, 40] [47, 47, 747, 47] := ⟨7, by decide⟩
    exact .cons (.update hfirst)
      (.cons (.update hsecond) (.cons .reset (.cons (.update hsecond) .nil)))

end NuedcFirmware.Modules.LineSymmetry
