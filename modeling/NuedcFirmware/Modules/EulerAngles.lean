import NuedcFirmware.Modules.YawUnwrap

/-!
Euler angles to quaternion and back, in exact arithmetic.

The device converts between degrees and radians by rounded constants. Both conversions have
the factor as a parameter, which the device fills with its constant. With the exact factors
the quaternion of three angles gives them back: pitch and roll from where they are, and the
yaw with all its turns, since the wrapped angle is the yaw modulo a turn (`euler_round_trip`).
-/

namespace NuedcFirmware.Modules.EulerAngles

open NuedcFirmware.Lib Icm45688 Attitude YawUnwrap Real

/-- The exact factors. -/
noncomputable def degree : ℝ := π / (180 : ℕ)
noncomputable def perDegree : ℝ := (180 : ℕ) / π

theorem degree_mul_perDegree (x : ℝ) : x * degree * perDegree = x := by
  have hpi := pi_ne_zero
  rw [degree, perDegree]
  field_simp

theorem quat_quatFromEulerBy (dev : Icm45688 ℝ) (factor : ℝ) :
    quat (quatFromEulerBy factor dev) =
      ofHalfAngles (dev.pitchDeg * factor * 0.5) (dev.rollDeg * factor * 0.5)
        (dev.yawDeg * factor * 0.5) := by
  rw [ofHalfAngles_eq]
  rfl

theorem clampf_of_mem {x : ℝ} (hlo : -1 ≤ x) (hhi : x ≤ 1) : clampf x (-1.0) 1.0 = x := by
  norm_num [clampf, hlo.not_gt, hhi.not_gt]

/-- The full angle of a half angle. -/
theorem two_mul_half (x : ℝ) : 2 * (x * 0.5) = x := by
  norm_num
  ring

section RoundTrip

variable {dev : Icm45688 ℝ}

/-- What `euler_from_quat` computes with, for a quaternion made of angles. -/
theorem eulerFromQuatBy_of_quat {roll pitch yaw : ℝ}
    (h : quat dev = ofHalfAngles (roll * 0.5) (pitch * 0.5) (yaw * 0.5)) (factor : ℝ) :
    eulerFromQuatBy factor dev =
      { dev with
        pitchDeg := Complex.arg ⟨cos pitch * cos roll, cos pitch * sin roll⟩ * factor
        rollDeg := arcsin (clampf (sin pitch) (-1.0) 1.0) * factor
        yawDeg := continuousYaw dev.yawDeg
          (Complex.arg ⟨cos pitch * cos yaw, cos pitch * sin yaw⟩ * factor) } := by
  obtain ⟨hrollSin, hrollCos⟩ := ofHalfAngles_roll (roll * 0.5) (pitch * 0.5) (yaw * 0.5)
  have hpitch := ofHalfAngles_pitch (roll * 0.5) (pitch * 0.5) (yaw * 0.5)
  obtain ⟨hyawSin, hyawCos⟩ := ofHalfAngles_yaw (roll * 0.5) (pitch * 0.5) (yaw * 0.5)
  rw [← h, two_mul_half] at hrollSin hrollCos hpitch hyawSin hyawCos
  rw [two_mul_half] at hrollSin hrollCos hyawSin hyawCos
  simp only [re_quat, imI_quat, imJ_quat, imK_quat] at hrollSin hrollCos hpitch hyawSin hyawCos
  have hone : (1.0 : ℝ) = 1 := by norm_num
  have htwo : (2.0 : ℝ) = 2 := by norm_num
  rw [eulerFromQuatBy, hone, htwo, hrollSin, hrollCos, hpitch, hyawSin, hyawCos]
  rfl

end RoundTrip

theorem degree_pos : 0 < degree := div_pos pi_pos (by norm_num)

/-- Half a turn and a quarter of a turn. -/
theorem half_turn : 180 * degree = π := by
  rw [degree]
  ring

theorem quarter_turn : 90 * degree = π / 2 := by
  rw [degree]
  ring

/-- The wrapped angle is the yaw modulo a turn, so the yaw stays. -/
theorem continuousYaw_toIocMod (yawDeg : ℝ) :
    continuousYaw yawDeg (toIocMod two_pi_pos (-π) (yawDeg * degree) * perDegree) = yawDeg := by
  refine continuousYaw_eq ?_ (by norm_num)
  rw [AddCommGroup.modEq_iff_zsmul]
  refine ⟨-toIocDiv two_pi_pos (-π) (yawDeg * degree), ?_⟩
  have hpi := pi_ne_zero
  rw [toIocMod, sub_mul, degree_mul_perDegree, perDegree]
  simp only [zsmul_eq_mul, Int.cast_neg]
  field_simp
  ring

/-- Encoding the angles of the device as a quaternion and decoding it again, in exact
arithmetic: pitch, roll and the continuous yaw are as before. -/
theorem euler_round_trip (dev : Icm45688 ℝ) (hpitch : dev.pitchDeg ∈ Set.Ioc (-180) 180)
    (hroll : dev.rollDeg ∈ Set.Ioo (-90) 90) :
    (eulerFromQuatBy perDegree (quatFromEulerBy degree dev)).pitchDeg = dev.pitchDeg ∧
      (eulerFromQuatBy perDegree (quatFromEulerBy degree dev)).rollDeg = dev.rollDeg ∧
      (eulerFromQuatBy perDegree (quatFromEulerBy degree dev)).yawDeg = dev.yawDeg := by
  have hpitchMem : dev.pitchDeg * degree ∈ Set.Ioc (-π) π := by
    rw [← half_turn, ← neg_mul]
    exact ⟨mul_lt_mul_of_pos_right hpitch.1 degree_pos,
      mul_le_mul_of_nonneg_right hpitch.2 degree_pos.le⟩
  have hrollMem : dev.rollDeg * degree ∈ Set.Ioo (-(π / 2)) (π / 2) := by
    rw [← quarter_turn, ← neg_mul]
    exact ⟨mul_lt_mul_of_pos_right hroll.1 degree_pos,
      mul_lt_mul_of_pos_right hroll.2 degree_pos⟩
  -- within a quarter of a turn the roll has a positive cosine, and is what its sine says
  have hcos : 0 < cos (dev.rollDeg * degree) := cos_pos_of_mem_Ioo hrollMem
  have hsin : arcsin (sin (dev.rollDeg * degree)) = dev.rollDeg * degree :=
    arcsin_sin hrollMem.1.le hrollMem.2.le
  rw [eulerFromQuatBy_of_quat (quat_quatFromEulerBy dev degree) perDegree]
  refine ⟨?_, ?_, ?_⟩
  · dsimp only
    rw [arg_polar hcos hpitchMem, degree_mul_perDegree]
  · dsimp only
    rw [clampf_of_mem (neg_one_le_sin _) (sin_le_one _), hsin, degree_mul_perDegree]
  · dsimp only
    rw [arg_polar_eq_toIocMod hcos]
    exact continuousYaw_toIocMod dev.yawDeg

/-- A device that has turned three times, upside down and leaning to the left. -/
noncomputable def turnedThrice : Icm45688 ℝ :=
  { (initHandleSpi : Icm45688 ℝ) with pitchDeg := (180 : ℕ), rollDeg := -30, yawDeg := 1080 }

theorem euler_round_trip_turnedThrice :
    (eulerFromQuatBy perDegree (quatFromEulerBy degree turnedThrice)).pitchDeg = 180 ∧
      (eulerFromQuatBy perDegree (quatFromEulerBy degree turnedThrice)).rollDeg = -30 ∧
      (eulerFromQuatBy perDegree (quatFromEulerBy degree turnedThrice)).yawDeg = 1080 :=
  euler_round_trip turnedThrice (by norm_num [turnedThrice]) (by norm_num [turnedThrice])

end NuedcFirmware.Modules.EulerAngles
