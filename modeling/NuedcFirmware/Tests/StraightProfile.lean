import NuedcFirmware.Lib.WholeFloat
import NuedcFirmware.Tests.StraightTest

/-!
The duties that the straight-line controller commands.

A wheel that is short of its target gets a duty between 220 and 300, which goes down with the
distance that remains; at the target it gets none (`wheelPwmFromCount_profile`). The
correction that keeps the wheels together never exceeds 15. All of this holds in arithmetic
that rounds.
-/

namespace NuedcFirmware.Tests.Straight

open NuedcFirmware.Lib NuedcFirmware.Platform NuedcFirmware.Modules

section Profile

variable {F : Type*} [CFloat F] [CFloat.Whole F]

/-- A whole number that is small enough to be an `int16_t` is exact. -/
theorem exact_of_small {n : ℤ} (hlo : -2 ^ 15 ≤ n) (hhi : n < 2 ^ 15) : Exact n :=
  exact_of_mem (by omega) (by omega)

variable (F) in
/-- The duty of a wheel that is short of its target, before it is cut to an integer. -/
def profile (remaining : UInt32) : F :=
  if remaining < decelWindowPulses then
    (minClosedLoopPwm : F) +
      ((basePwm - minClosedLoopPwm : ℤ) : F) * ofCount remaining / ofCount decelWindowPulses
  else (basePwm : F)

/-- A time within the ramp, as a part of it. -/
theorem ramp_mem {elapsedMs : UInt32} (h : elapsedMs < rampTimeMs) :
    ((0 : ℤ) : F) ≤ ofCount elapsedMs ∧ (ofCount elapsedMs : F) ≤ ((500 : ℤ) : F) ∧
      ((0 : ℤ) : F) ≤ ofCount elapsedMs / ofCount rampTimeMs ∧
      (ofCount elapsedMs : F) / ofCount rampTimeMs ≤ ((1 : ℤ) : F) := by
  have hlt : elapsedMs.toNat < 500 := UInt32.lt_iff_toNat_lt.mp h
  have hexact : Exact 500 := exact_of_small (by decide) (by decide)
  have hlo : ((0 : ℤ) : F) ≤ ofCount elapsedMs := CFloat.Whole.intCast_le (by omega)
  have hhi : (ofCount elapsedMs : F) ≤ ((500 : ℤ) : F) := CFloat.Whole.intCast_le (by omega)
  have hdivLo := CFloat.Whole.div_le_div (by decide) hexact hlo
  have hdivHi := CFloat.Whole.div_le_div (by decide) hexact hhi
  have hzero := CFloat.Whole.intCast_mul_div (F := F) (m := 0) (n := 500) (by decide) hexact
    (exact_of_small (by decide) (by decide))
  have hone := CFloat.Whole.intCast_mul_div (F := F) (m := 1) (n := 500) (by decide) hexact
    (exact_of_small (by decide) (by decide))
  rw [Int.zero_mul] at hzero
  rw [Int.one_mul] at hone
  rw [hzero] at hdivLo
  rw [hone] at hdivHi
  exact ⟨hlo, hhi, hdivLo, hdivHi⟩

/-- With no offset and the same duty at the start, the ramp does nothing. -/
theorem ramp_eq {elapsedMs : UInt32} (h : elapsedMs < rampTimeMs) :
    (startPwm : F) + ((basePwm - startPwm : ℤ) : F) * ofCount elapsedMs / ofCount rampTimeMs =
        (basePwm : F) ∧
      ((0 : ℤ) : F) * (ofCount elapsedMs / ofCount rampTimeMs) = ((0 : ℤ) : F) := by
  obtain ⟨hlo, hhi, hdivLo, hdivHi⟩ := ramp_mem (F := F) h
  have hexact : Exact 500 := exact_of_small (by decide) (by decide)
  have hzero : ((basePwm - startPwm : ℤ) : F) * ofCount elapsedMs = ((0 * 500 : ℤ) : F) :=
    CFloat.Whole.zero_mul hlo hhi hexact
  have hquotient : ((0 * 500 : ℤ) : F) / ofCount rampTimeMs = ((0 : ℤ) : F) :=
    CFloat.Whole.intCast_mul_div (by decide) hexact (exact_of_small (by decide) (by decide))
  refine ⟨?_, CFloat.Whole.zero_mul hdivLo hdivHi (exact_of_small (by decide) (by decide))⟩
  rw [hzero, hquotient]
  exact CFloat.Whole.intCast_add (exact_of_small (by decide) (by decide))
    (exact_of_small (by decide) (by decide)) (exact_of_small (by decide) (by decide))

/-- With no offset, a wheel is driven by its profile. -/
theorem wheelPwmFromCount_eq {count target : UInt32} (elapsedMs : UInt32) (h : count < target) :
    wheelPwmFromCount F count target elapsedMs 0 =
      toInt16 (truncate (((0 : ℤ) : F) + profile F (target - count))) := by
  have hone : ((0 : ℤ) : F) * ((1 : ℤ) : F) = ((0 : ℤ) : F) :=
    CFloat.Whole.zero_mul (CFloat.Whole.intCast_le (by decide)) (CFloat.Whole.intCast_le le_rfl)
      (exact_of_small (by decide) (by decide))
  rw [wheelPwmFromCount, if_neg (UInt32.not_le.mpr h), profile]
  by_cases hnear : target - count < decelWindowPulses
  · simp only [if_pos hnear, CFloat.Whole.one, hone]
    rw [CFloat.Whole.add_comm]
  · simp only [if_neg hnear]
    by_cases hearly : elapsedMs < rampTimeMs
    · obtain ⟨hbase, htrim⟩ := ramp_eq (F := F) hearly
      simp only [if_pos hearly, hbase, htrim]
      rw [CFloat.Whole.add_comm]
    · simp only [if_neg hearly, CFloat.Whole.one, hone]
      rw [CFloat.Whole.add_comm]

variable (F) in
/-- The duty while a wheel slows down, with a distance that remains. -/
def slowingPwm (remaining : ℤ) : F :=
  (minClosedLoopPwm : F) +
    ((basePwm - minClosedLoopPwm : ℤ) : F) * (remaining : F) / ofCount decelWindowPulses

theorem slowingPwm_le {m n : ℤ} (h : m ≤ n) : slowingPwm F m ≤ slowingPwm F n := by
  have hcast : (m : F) ≤ (n : F) := CFloat.Whole.intCast_le h
  have hmul := CFloat.Whole.mul_le_mul (n := basePwm - minClosedLoopPwm) (by decide)
    (exact_of_small (by decide) (by decide)) hcast
  have hdiv := CFloat.Whole.div_le_div (n := 900) (by decide)
    (exact_of_small (by decide) (by decide)) hmul
  exact CFloat.Whole.add_le_add (exact_of_small (by decide) (by decide)) hdiv

/-- At the two ends of the window the duty is whole. -/
theorem slowingPwm_eq {m k : ℤ} (hm : Exact m) (hk : Exact k) (hend : 80 * m = k * 900)
    (hproduct : Exact (k * 900)) (hsum : Exact (220 + k)) :
    slowingPwm F m = ((220 + k : ℤ) : F) := by
  have hmul : ((basePwm - minClosedLoopPwm : ℤ) : F) * (m : F) = ((k * 900 : ℤ) : F) := by
    rw [← hend]
    exact CFloat.Whole.intCast_mul (exact_of_small (by decide) (by decide)) hm (hend ▸ hproduct)
  have hdiv : ((k * 900 : ℤ) : F) / ofCount decelWindowPulses = (k : F) :=
    CFloat.Whole.intCast_mul_div (by decide) (exact_of_small (by decide) (by decide)) hproduct
  rw [slowingPwm, hmul, hdiv]
  exact CFloat.Whole.intCast_add (exact_of_small (by decide) (by decide)) hk hsum

theorem slowingPwm_zero : slowingPwm F 0 = (minClosedLoopPwm : F) := by
  apply slowingPwm_eq (k := 0) <;> first | rfl | exact exact_of_small (by decide) (by decide)

theorem slowingPwm_window : slowingPwm F 900 = (basePwm : F) := by
  apply slowingPwm_eq (k := 80) <;> first | rfl | exact exact_of_mem (by decide) (by decide)

omit [CFloat.Whole F] in
theorem profile_of_lt {remaining : UInt32} (h : remaining < decelWindowPulses) :
    profile F remaining = slowingPwm F remaining.toNat := if_pos h

/-- The duty does not go up when less remains. -/
theorem profile_le {remaining remaining' : UInt32} (h : remaining ≤ remaining') :
    profile F remaining ≤ profile F remaining' := by
  have hle : (remaining.toNat : ℤ) ≤ remaining'.toNat :=
    Int.ofNat_le.mpr (UInt32.le_iff_toNat_le.mp h)
  by_cases hnear' : remaining' < decelWindowPulses
  · have hnear : remaining < decelWindowPulses := UInt32.lt_of_le_of_lt h hnear'
    rw [profile_of_lt hnear, profile_of_lt hnear']
    exact slowingPwm_le hle
  · have hfar' : profile F remaining' = (basePwm : F) := if_neg hnear'
    rw [hfar']
    by_cases hnear : remaining < decelWindowPulses
    · have hlt : remaining.toNat < 900 := UInt32.lt_iff_toNat_lt.mp hnear
      rw [profile_of_lt hnear, ← slowingPwm_window]
      exact slowingPwm_le (by omega)
    · have hfar : profile F remaining = (basePwm : F) := if_neg hnear
      rw [hfar]
      exact CFloat.Whole.intCast_le le_rfl

theorem profile_mem (remaining : UInt32) :
    (minClosedLoopPwm : F) ≤ profile F remaining ∧ profile F remaining ≤ (basePwm : F) := by
  by_cases hnear : remaining < decelWindowPulses
  · have hlt : remaining.toNat < 900 := UInt32.lt_iff_toNat_lt.mp hnear
    rw [profile_of_lt hnear, ← slowingPwm_zero, ← slowingPwm_window]
    exact ⟨slowingPwm_le (by omega), slowingPwm_le (by omega)⟩
  · have hfar : profile F remaining = (basePwm : F) := if_neg hnear
    rw [hfar]
    exact ⟨CFloat.Whole.intCast_le (by decide), CFloat.Whole.intCast_le le_rfl⟩

/-- The addition of no offset keeps the bounds. -/
theorem zero_add_profile_mem (remaining : UInt32) :
    (minClosedLoopPwm : F) ≤ ((0 : ℤ) : F) + profile F remaining ∧
      ((0 : ℤ) : F) + profile F remaining ≤ (basePwm : F) := by
  obtain ⟨hlo, hhi⟩ := profile_mem (F := F) remaining
  have hexact : ∀ n : ℤ, -2 ^ 15 ≤ n → n < 2 ^ 15 → ((0 : ℤ) : F) + (n : F) = (n : F) :=
    fun n hlo hhi => by
      rw [CFloat.Whole.intCast_add (exact_of_small (by decide) (by decide))
        (exact_of_small hlo hhi) (by rw [Int.zero_add]; exact exact_of_small hlo hhi), Int.zero_add]
  rw [← hexact minClosedLoopPwm (by decide) (by decide),
    ← hexact basePwm (by decide) (by decide)]
  exact ⟨CFloat.Whole.add_le_add (exact_of_small (by decide) (by decide)) hlo,
    CFloat.Whole.add_le_add (exact_of_small (by decide) (by decide)) hhi⟩

/-! ### The duty of a wheel -/

section Duty

variable {count count' target : UInt32} (elapsedMs : UInt32)

omit [CFloat.Whole F] in
theorem wheelPwmFromCount_of_reached (offset : ℤ) (h : target ≤ count) :
    wheelPwmFromCount F count target elapsedMs offset = 0 := if_pos h

/-- The conversion to `int16_t` changes nothing. -/
theorem wheelPwmFromCount_eq_truncate (h : count < target) :
    wheelPwmFromCount F count target elapsedMs 0 =
        truncate (((0 : ℤ) : F) + profile F (target - count)) ∧
      220 ≤ truncate (((0 : ℤ) : F) + profile F (target - count)) ∧
      truncate (((0 : ℤ) : F) + profile F (target - count)) ≤ 300 := by
  obtain ⟨hlo, hhi⟩ := zero_add_profile_mem (F := F) (target - count)
  have hmem := CFloat.Whole.truncate_mem (exact_of_small (by decide) (by decide))
    (exact_of_small (by decide) (by decide)) hlo hhi
  have hmin : minClosedLoopPwm = 220 := rfl
  have hbase : basePwm = 300 := rfl
  refine ⟨?_, hmem⟩
  rw [wheelPwmFromCount_eq elapsedMs h, toInt16_of_mem (by omega) (by omega)]

theorem wheelPwmFromCount_mem (h : count < target) :
    220 ≤ wheelPwmFromCount F count target elapsedMs 0 ∧
      wheelPwmFromCount F count target elapsedMs 0 ≤ 300 := by
  obtain ⟨heq, hmem⟩ := wheelPwmFromCount_eq_truncate (F := F) elapsedMs h
  rw [heq]
  exact hmem

/-- Farther than the window from the target the duty is the full one. -/
theorem wheelPwmFromCount_of_far (h : count < target) (hfar : decelWindowPulses ≤ target - count) :
    wheelPwmFromCount F count target elapsedMs 0 = 300 := by
  have hprofile : profile F (target - count) = (basePwm : F) := if_neg (UInt32.not_lt.mpr hfar)
  rw [wheelPwmFromCount_eq elapsedMs h, hprofile,
    CFloat.Whole.intCast_add (exact_of_small (by decide) (by decide))
      (exact_of_small (by decide) (by decide)) (exact_of_small (by decide) (by decide)),
    CFloat.Whole.truncate_intCast (exact_of_small (by decide) (by decide))]
  rfl

/-- A wheel that is farther on is not driven harder. -/
theorem wheelPwmFromCount_le (h : count ≤ count') :
    wheelPwmFromCount F count' target elapsedMs 0 ≤
      wheelPwmFromCount F count target elapsedMs 0 := by
  rcases UInt32.lt_or_le count' target with hlt' | hreached'
  · have hlt : count < target := UInt32.lt_of_le_of_lt h hlt'
    have hremaining : target - count' ≤ target - count := by
      rw [UInt32.le_iff_toNat_le, UInt32.toNat_sub_of_le _ _ (UInt32.le_of_lt hlt'),
        UInt32.toNat_sub_of_le _ _ (UInt32.le_of_lt hlt)]
      have := UInt32.le_iff_toNat_le.mp h
      omega
    obtain ⟨hlo, -⟩ := zero_add_profile_mem (F := F) (target - count')
    obtain ⟨-, hhi⟩ := zero_add_profile_mem (F := F) (target - count)
    rw [(wheelPwmFromCount_eq_truncate elapsedMs hlt').1,
      (wheelPwmFromCount_eq_truncate elapsedMs hlt).1]
    exact CFloat.Whole.truncate_le hlo
      (CFloat.Whole.add_le_add (exact_of_small (by decide) (by decide)) (profile_le hremaining)) hhi
      (exact_of_small (by decide) (by decide)) (exact_of_small (by decide) (by decide))
  · rw [wheelPwmFromCount_of_reached elapsedMs 0 hreached']
    rcases UInt32.lt_or_le count target with hlt | hreached
    · have := wheelPwmFromCount_mem (F := F) elapsedMs hlt
      omega
    · rw [wheelPwmFromCount_of_reached elapsedMs 0 hreached]

end Duty

end Profile

/-! ### The correction -/

theorem encoderSyncAdjust_mem (F : Type*) [CFloat F] (leftCount rightCount elapsedMs : UInt32) :
    -15 ≤ encoderSyncAdjust F leftCount rightCount elapsedMs ∧
      encoderSyncAdjust F leftCount rightCount elapsedMs ≤ 15 := by
  rw [encoderSyncAdjust]
  simp only [encoderSyncMaxPwm]
  split_ifs <;> omega

section Duties

variable {F : Type*} [CFloat F] [CFloat.Whole F] (leftCount rightCount elapsedMs : UInt32)

/-- The correction is only made while both wheels are short of their targets. -/
theorem wheelDuties_cases :
    wheelDuties F leftCount rightCount elapsedMs =
        (wheelPwmFromCount F leftCount (leftTargetPulses F) elapsedMs 0,
          wheelPwmFromCount F rightCount (rightTargetPulses F) elapsedMs 0) ∧
        (leftTargetPulses F ≤ leftCount ∨ rightTargetPulses F ≤ rightCount) ∨
      wheelDuties F leftCount rightCount elapsedMs =
        (wheelPwmFromCount F leftCount (leftTargetPulses F) elapsedMs 0 +
            encoderSyncAdjust F leftCount rightCount elapsedMs,
          wheelPwmFromCount F rightCount (rightTargetPulses F) elapsedMs 0 -
            encoderSyncAdjust F leftCount rightCount elapsedMs) ∧
        leftCount < leftTargetPulses F ∧ rightCount < rightTargetPulses F := by
  have hleftOffset : leftPwmOffset = 0 := rfl
  have hrightOffset : rightPwmOffset = 0 := rfl
  simp only [wheelDuties, hleftOffset, hrightOffset]
  rcases UInt32.lt_or_le leftCount (leftTargetPulses F) with hleft | hleft
  · rcases UInt32.lt_or_le rightCount (rightTargetPulses F) with hright | hright
    · have hl := wheelPwmFromCount_mem (F := F) elapsedMs hleft
      have hr := wheelPwmFromCount_mem (F := F) elapsedMs hright
      have hadjust := encoderSyncAdjust_mem F leftCount rightCount elapsedMs
      refine Or.inr ⟨?_, hleft, hright⟩
      rw [if_pos ⟨by omega, by omega⟩, toInt16_of_mem (by omega) (by omega),
        toInt16_of_mem (by omega) (by omega)]
    · have hr := wheelPwmFromCount_of_reached (F := F) elapsedMs 0 hright
      exact Or.inl ⟨if_neg fun h => h.2 hr, Or.inr hright⟩
  · have hl := wheelPwmFromCount_of_reached (F := F) elapsedMs 0 hleft
    exact Or.inl ⟨if_neg fun h => h.1 hl, Or.inl hleft⟩

/-- A wheel at its target has no duty, and one that is short of it is driven ahead. -/
theorem wheelDuties_mem :
    (leftTargetPulses F ≤ leftCount ∧ (wheelDuties F leftCount rightCount elapsedMs).1 = 0 ∨
      leftCount < leftTargetPulses F ∧ 205 ≤ (wheelDuties F leftCount rightCount elapsedMs).1 ∧
        (wheelDuties F leftCount rightCount elapsedMs).1 ≤ 315) ∧
    (rightTargetPulses F ≤ rightCount ∧ (wheelDuties F leftCount rightCount elapsedMs).2 = 0 ∨
      rightCount < rightTargetPulses F ∧ 205 ≤ (wheelDuties F leftCount rightCount elapsedMs).2 ∧
        (wheelDuties F leftCount rightCount elapsedMs).2 ≤ 315) := by
  have hadjust := encoderSyncAdjust_mem F leftCount rightCount elapsedMs
  have hwheel : ∀ count target : UInt32,
      target ≤ count ∧ wheelPwmFromCount F count target elapsedMs 0 = 0 ∨
        count < target ∧ 220 ≤ wheelPwmFromCount F count target elapsedMs 0 ∧
          wheelPwmFromCount F count target elapsedMs 0 ≤ 300 := by
    intro count target
    rcases UInt32.lt_or_le count target with hlt | hreached
    · exact Or.inr ⟨hlt, wheelPwmFromCount_mem elapsedMs hlt⟩
    · exact Or.inl ⟨hreached, wheelPwmFromCount_of_reached elapsedMs 0 hreached⟩
  have hl := hwheel leftCount (leftTargetPulses F)
  have hr := hwheel rightCount (rightTargetPulses F)
  rcases wheelDuties_cases (F := F) leftCount rightCount elapsedMs with
    ⟨hduties, -⟩ | ⟨hduties, hleft, hright⟩
  · rw [hduties]
    constructor
    · rcases hl with hl | ⟨hlt, hl⟩
      · exact Or.inl hl
      · exact Or.inr ⟨hlt, by omega, by omega⟩
    · rcases hr with hr | ⟨hlt, hr⟩
      · exact Or.inl hr
      · exact Or.inr ⟨hlt, by omega, by omega⟩
  · have hl := wheelPwmFromCount_mem (F := F) elapsedMs hleft
    have hr := wheelPwmFromCount_mem (F := F) elapsedMs hright
    rw [hduties]
    exact ⟨Or.inr ⟨hleft, by omega, by omega⟩, Or.inr ⟨hright, by omega, by omega⟩⟩

end Duties

/-- In arithmetic that rounds, for every target and at every time: a wheel gets no duty when
it has reached its target and only then, else one from 220 to 300, the full one outside of
the window, and never a higher one for a higher count. -/
theorem wheel_profile (F : Type*) [CFloat F] [CFloat.Whole F] (target elapsedMs : UInt32) :
    (∀ count, wheelPwmFromCount F count target elapsedMs 0 = 0 ↔ target ≤ count) ∧
      (∀ count < target, 220 ≤ wheelPwmFromCount F count target elapsedMs 0 ∧
        wheelPwmFromCount F count target elapsedMs 0 ≤ 300) ∧
      (∀ count < target, decelWindowPulses ≤ target - count →
        wheelPwmFromCount F count target elapsedMs 0 = 300) ∧
      ∀ count count', count ≤ count' →
        wheelPwmFromCount F count' target elapsedMs 0 ≤
          wheelPwmFromCount F count target elapsedMs 0 := by
  refine ⟨fun count => ⟨fun hzero => ?_, ?_⟩, ?_, ?_, ?_⟩
  · by_contra hshort
    have hmem := wheelPwmFromCount_mem (F := F) elapsedMs (UInt32.not_le.mp hshort)
    omega
  · exact wheelPwmFromCount_of_reached elapsedMs 0
  · exact fun count => wheelPwmFromCount_mem elapsedMs
  · exact fun count => wheelPwmFromCount_of_far elapsedMs
  · exact fun count count' => wheelPwmFromCount_le elapsedMs

/-- With the rounding of the target, on the way to the left target. -/
theorem wheel_profile_rounded :
    leftTargetPulses Single = 7344 ∧
      (wheelPwmFromCount Single 7344 7344 600 0 = 0 ↔ (7344 : UInt32) ≤ 7344) ∧
      wheelPwmFromCount Single 6444 7344 600 0 = 300 ∧
      wheelPwmFromCount Single 7000 7344 600 0 ≤ wheelPwmFromCount Single 6900 7344 600 0 :=
  have h := wheel_profile Single 7344 600
  ⟨by decide +kernel, h.1 7344, h.2.2.1 6444 (by decide) (by decide),
    h.2.2.2 6900 7000 (by decide)⟩

section Exact

variable {K : Type*} [Field K] [LinearOrder K] [IsStrictOrderedRing K] [FloorRing K]

theorem targetPulses_eq {pulsesPerCm : K} {n : ℕ} (h : pulsesPerCm * 100 = n) :
    targetPulses pulsesPerCm = UInt32.ofInt n := by
  have hcast : (straightDistanceCm : K) = 100 := by
    rw [straightDistanceCm]
    norm_num
  have htruncate : truncate (((2 * n + 1 : ℤ) : K) / (2 : ℤ)) = (n : ℤ) := by
    rw [truncate_intCast_div _ (by decide), Int.tdiv_eq_ediv_of_nonneg (by omega)]
    omega
  have hvalue : pulsesPerCm * (straightDistanceCm : K) + 0.5 = ((2 * n + 1 : ℤ) : K) / (2 : ℤ) := by
    rw [hcast, h]
    push_cast
    norm_num
    ring
  rw [targetPulses, hvalue, htruncate]

theorem leftTargetPulses_eq : leftTargetPulses K = 7344 :=
  targetPulses_eq (n := 7344) (by norm_num [leftPulsesPerCm])

theorem rightTargetPulses_eq : rightTargetPulses K = 7314 :=
  targetPulses_eq (n := 7314) (by norm_num [rightPulsesPerCm])

/-- By how many pulses the left wheel is behind the right one, in whole pulses of the left. -/
def syncError (leftCount rightCount : UInt32) : ℤ :=
  (rightCount.toNat * 7344 + 3657) / 7314 - leftCount.toNat

/-- The wanted count is the nearest one to the right count in the ratio of the targets. -/
theorem abs_syncError_le (leftCount rightCount : UInt32) :
    |2 * (7314 * (syncError leftCount rightCount + leftCount.toNat) - 7344 * rightCount.toNat)| ≤
      7314 := by
  rw [syncError, abs_le]
  omega

section Counts

variable {leftCount rightCount : UInt32} (elapsedMs : UInt32) (hleft : leftCount ≤ 7344)
  (hright : rightCount ≤ 7314)
include hleft hright

theorem syncError_mem : -7344 ≤ syncError leftCount rightCount ∧
    syncError leftCount rightCount ≤ 7344 := by
  have hl : leftCount.toNat ≤ 7344 := UInt32.le_iff_toNat_le.mp hleft
  have hr : rightCount.toNat ≤ 7314 := UInt32.le_iff_toNat_le.mp hright
  rw [syncError]
  omega

/-- None of the conversions of the error wraps. -/
theorem error_eq :
    toInt32 (desiredLeftCount K rightCount - toInt32 leftCount.toNat) =
      syncError leftCount rightCount := by
  have hl : leftCount.toNat ≤ 7344 := UInt32.le_iff_toNat_le.mp hleft
  have hr : rightCount.toNat ≤ 7314 := UInt32.le_iff_toNat_le.mp hright
  have hmem := syncError_mem hleft hright
  have hdesired : desiredLeftCount K rightCount = (rightCount.toNat * 7344 + 3657) / 7314 := by
    rw [desiredLeftCount, leftTargetPulses_eq, rightTargetPulses_eq]
    show toInt32 (((rightCount.toNat * 7344 + 3657) / 7314 : ℕ) : ℤ) = _
    push_cast
    exact toInt32_of_mem (by omega) (by omega)
  rw [hdesired, toInt32_of_mem (x := leftCount.toNat) (by omega) (by omega)]
  exact toInt32_of_mem (x := syncError leftCount rightCount) (by omega) (by omega)

/-- The correction after the ramp, before it is limited: 0.08 for each pulse, cut to an
integer. -/
def correction (error : ℤ) : ℤ := if 0 ≤ error then 2 * error / 25 else -(-(2 * error) / 25)

omit hleft hright in
theorem truncate_correction (error : ℤ) :
    truncate ((error : K) * encoderSyncKp) = correction error := by
  have hvalue : (error : K) * encoderSyncKp = ((2 * error : ℤ) : K) / (25 : ℤ) := by
    rw [encoderSyncKp]
    push_cast
    norm_num
    ring
  rw [hvalue, truncate_intCast_div _ (by decide), correction]
  split_ifs with hsign
  · exact Int.tdiv_eq_ediv_of_nonneg (by omega)
  · rw [← Int.tdiv_eq_ediv_of_nonneg (by omega), Int.neg_tdiv, neg_neg]

omit hleft hright in
/-- The ramp weakens the correction and keeps its sign. -/
theorem truncate_ramp (error : ℤ) {scale : K} (hlo : 0 ≤ scale) (hhi : scale ≤ 1) :
    (0 ≤ error → 0 ≤ truncate ((error : K) * encoderSyncKp * scale) ∧
        truncate ((error : K) * encoderSyncKp * scale) ≤ correction error) ∧
      (error ≤ 0 → correction error ≤ truncate ((error : K) * encoderSyncKp * scale) ∧
        truncate ((error : K) * encoderSyncKp * scale) ≤ 0) := by
  have hkp : (0 : K) ≤ encoderSyncKp := by
    rw [encoderSyncKp]
    norm_num
  have hzero : truncate (0 : K) = 0 := by
    have := truncate_intCast (K := K) 0
    rwa [Int.cast_zero] at this
  rw [← truncate_correction (K := K)]
  constructor
  · intro hsign
    have hgain : (0 : K) ≤ (error : K) * encoderSyncKp := mul_nonneg (by exact_mod_cast hsign) hkp
    refine ⟨?_, truncate_mono (mul_le_of_le_one_right hgain hhi)⟩
    rw [← hzero]
    exact truncate_mono (mul_nonneg hgain hlo)
  · intro hsign
    have hgain : (error : K) * encoderSyncKp ≤ 0 :=
      mul_nonpos_of_nonpos_of_nonneg (by exact_mod_cast hsign) hkp
    refine ⟨truncate_mono (le_mul_of_le_one_right hgain hhi), ?_⟩
    rw [← hzero]
    exact truncate_mono (mul_nonpos_of_nonpos_of_nonneg hgain hlo)

/-- The correction acts against the error, is no more than 0.08 for each pulse of it and no
more than 15, and after the ramp it is just that. -/
theorem encoderSyncAdjust_spec :
    (0 ≤ syncError leftCount rightCount →
      0 ≤ encoderSyncAdjust K leftCount rightCount elapsedMs ∧
        encoderSyncAdjust K leftCount rightCount elapsedMs ≤
          correction (syncError leftCount rightCount)) ∧
    (syncError leftCount rightCount ≤ 0 →
      correction (syncError leftCount rightCount) ≤
          encoderSyncAdjust K leftCount rightCount elapsedMs ∧
        encoderSyncAdjust K leftCount rightCount elapsedMs ≤ 0) ∧
    (rampTimeMs ≤ elapsedMs →
      encoderSyncAdjust K leftCount rightCount elapsedMs =
        max (-15) (min (correction (syncError leftCount rightCount)) 15)) := by
  have hmem := syncError_mem hleft hright
  obtain ⟨scale, hlo, hhi, hlate, hscale⟩ : ∃ scale : K, 0 ≤ scale ∧ scale ≤ 1 ∧
      (rampTimeMs ≤ elapsedMs → scale = 1) ∧
      (if elapsedMs < rampTimeMs then ofCount elapsedMs / ofCount rampTimeMs else 1.0) = scale := by
    by_cases hearly : elapsedMs < rampTimeMs
    · obtain ⟨-, -, hlo, hhi⟩ := ramp_mem (F := K) hearly
      refine ⟨_, by simpa using hlo, by simpa using hhi, ?_, if_pos hearly⟩
      exact fun hlate => absurd hearly (UInt32.not_lt.mpr hlate)
    · exact ⟨1, zero_le_one, le_rfl, fun _ => rfl, by rw [if_neg hearly]; norm_num⟩
  obtain ⟨hpos, hneg⟩ := truncate_ramp (syncError leftCount rightCount) hlo hhi
  have hone : rampTimeMs ≤ elapsedMs →
      truncate ((syncError leftCount rightCount : K) * encoderSyncKp * scale) =
        correction (syncError leftCount rightCount) := by
    intro hle
    rw [hlate hle, mul_one, truncate_correction]
  rw [encoderSyncAdjust, error_eq hleft hright]
  simp only [hscale, encoderSyncDeadband, encoderSyncMaxPwm]
  generalize syncError leftCount rightCount = error at *
  generalize truncate ((error : K) * encoderSyncKp * scale) = adjust at *
  rw [correction] at *
  have hconversion : toInt16 adjust = adjust := toInt16_of_mem (by omega) (by omega)
  rw [hconversion]
  -- within the dead band the correction is zero anyway
  refine ⟨?_, ?_, fun hle => ?_⟩
  · split_ifs <;> omega
  · split_ifs <;> omega
  · have hadjust := hone hle
    split_ifs <;> omega

end Counts

/-- At full speed, in exact arithmetic: the wheel that is behind by the ratio of the targets
gets 0.08 more for each pulse, and the other one as much less, up to 15. -/
theorem duties_at_speed (K : Type*) [Field K] [LinearOrder K] [IsStrictOrderedRing K] [FloorRing K]
    {leftCount rightCount elapsedMs : UInt32} (hleft : leftCount ≤ 6444)
    (hright : rightCount ≤ 6414) (hlate : rampTimeMs ≤ elapsedMs) :
    |2 * (7314 * (syncError leftCount rightCount + leftCount.toNat) - 7344 * rightCount.toNat)| ≤
        7314 ∧
      wheelDuties K leftCount rightCount elapsedMs =
        (300 + max (-15) (min (correction (syncError leftCount rightCount)) 15),
          300 - max (-15) (min (correction (syncError leftCount rightCount)) 15)) := by
  have hl : leftCount.toNat ≤ 6444 := UInt32.le_iff_toNat_le.mp hleft
  have hr : rightCount.toNat ≤ 6414 := UInt32.le_iff_toNat_le.mp hright
  have hleft' : leftCount ≤ 7344 := UInt32.le_trans hleft (by decide)
  have hright' : rightCount ≤ 7314 := UInt32.le_trans hright (by decide)
  have hshortLeft : leftCount < leftTargetPulses K := by
    rw [leftTargetPulses_eq]
    exact UInt32.lt_of_le_of_lt hleft (by decide)
  have hshortRight : rightCount < rightTargetPulses K := by
    rw [rightTargetPulses_eq]
    exact UInt32.lt_of_le_of_lt hright (by decide)
  have hfarLeft : decelWindowPulses ≤ leftTargetPulses K - leftCount := by
    rw [leftTargetPulses_eq, UInt32.le_iff_toNat_le, UInt32.toNat_sub_of_le _ _ hleft']
    show 900 ≤ 7344 - leftCount.toNat
    omega
  have hfarRight : decelWindowPulses ≤ rightTargetPulses K - rightCount := by
    rw [rightTargetPulses_eq, UInt32.le_iff_toNat_le, UInt32.toNat_sub_of_le _ _ hright']
    show 900 ≤ 7314 - rightCount.toNat
    omega
  refine ⟨abs_syncError_le leftCount rightCount, ?_⟩
  rcases wheelDuties_cases (F := K) leftCount rightCount elapsedMs with
    ⟨-, hreached⟩ | ⟨hduties, -, -⟩
  · exact (hreached.elim (UInt32.not_le.mpr hshortLeft) (UInt32.not_le.mpr hshortRight)).elim
  · obtain ⟨-, -, hadjust⟩ := encoderSyncAdjust_spec (K := K) elapsedMs hleft' hright'
    rw [hduties, hadjust hlate, wheelPwmFromCount_of_far elapsedMs hshortLeft hfarLeft,
      wheelPwmFromCount_of_far elapsedMs hshortRight hfarRight]

/-- The left wheel is 100 pulses behind. -/
theorem duties_of_lagging_left : wheelDuties ℚ 3572 3657 2000 = (308, 292) :=
  (duties_at_speed ℚ (by decide) (by decide) (by decide)).2.trans (by decide)

end Exact

end NuedcFirmware.Tests.Straight
