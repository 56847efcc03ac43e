import Mathlib.Algebra.Quaternion
import Mathlib.Analysis.SpecialFunctions.Complex.Arg
import Mathlib.Analysis.SpecialFunctions.Sqrt
import Mathlib.Analysis.SpecialFunctions.Trigonometric.Basic
import Mathlib.Tactic.Linarith
import Mathlib.Tactic.NormNum
import Mathlib.Tactic.Positivity

/-!
Rotations as unit quaternions, the way programs compute them: from three angles, from
a rate by the truncated exponential series, back to unit norm by a division, and back to
the angles by an `atan2`, an `asin` and another `atan2` (`ofHalfAngles_roll`,
`ofHalfAngles_pitch`, `ofHalfAngles_yaw`).

The truncated series gives no unit quaternion, but its norm keeps away from zero
however long the vector is (`normSq_expSeries_ge`). As the norm is multiplicative, a
unit quaternion turned by it can always be normalised again.
-/

namespace NuedcFirmware.Lib

open Quaternion

/-- The rotations about the three axes, by the half of the angle. -/
noncomputable def aboutX (half : ℝ) : ℍ[ℝ] := ⟨Real.cos half, Real.sin half, 0, 0⟩
noncomputable def aboutY (half : ℝ) : ℍ[ℝ] := ⟨Real.cos half, 0, Real.sin half, 0⟩
noncomputable def aboutZ (half : ℝ) : ℍ[ℝ] := ⟨Real.cos half, 0, 0, Real.sin half⟩

/-- The rotation by three angles, one axis after the other. -/
noncomputable def ofHalfAngles (roll pitch yaw : ℝ) : ℍ[ℝ] :=
  aboutZ yaw * aboutY pitch * aboutX roll

theorem ofHalfAngles_eq (roll pitch yaw : ℝ) :
    ofHalfAngles roll pitch yaw =
      ⟨Real.cos roll * Real.cos pitch * Real.cos yaw + Real.sin roll * Real.sin pitch * Real.sin yaw,
        Real.sin roll * Real.cos pitch * Real.cos yaw - Real.cos roll * Real.sin pitch * Real.sin yaw,
        Real.cos roll * Real.sin pitch * Real.cos yaw + Real.sin roll * Real.cos pitch * Real.sin yaw,
        Real.cos roll * Real.cos pitch * Real.sin yaw -
          Real.sin roll * Real.sin pitch * Real.cos yaw⟩ := by
  rw [ofHalfAngles]
  ext <;> simp only [re_mul, imI_mul, imJ_mul, imK_mul] <;>
    simp only [aboutX, aboutY, aboutZ] <;> ring

theorem normSq_ofHalfAngles (roll pitch yaw : ℝ) :
    normSq (ofHalfAngles roll pitch yaw) = 1 := by
  have hx : normSq (aboutX roll) = 1 := by
    rw [normSq_def', aboutX]
    simp
  have hy : normSq (aboutY pitch) = 1 := by
    rw [normSq_def', aboutY]
    simp
  have hz : normSq (aboutZ yaw) = 1 := by
    rw [normSq_def', aboutZ]
    simp
  rw [ofHalfAngles, map_mul, map_mul, hx, hy, hz, mul_one, mul_one]

/-! ### The angles of a rotation

What the two arguments of an `atan2` and the argument of an `asin` are, for a quaternion made
of angles, and what the `atan2` is then.
-/

section Angles

open Real

variable (roll pitch yaw : ℝ)

theorem ofHalfAngles_roll :
    2 * ((ofHalfAngles roll pitch yaw).re * (ofHalfAngles roll pitch yaw).imI +
        (ofHalfAngles roll pitch yaw).imJ * (ofHalfAngles roll pitch yaw).imK) =
      cos (2 * pitch) * sin (2 * roll) ∧
    1 - 2 * ((ofHalfAngles roll pitch yaw).imI * (ofHalfAngles roll pitch yaw).imI +
        (ofHalfAngles roll pitch yaw).imJ * (ofHalfAngles roll pitch yaw).imJ) =
      cos (2 * pitch) * cos (2 * roll) := by
  have hr := sin_sq_add_cos_sq roll
  have hp := sin_sq_add_cos_sq pitch
  have hy := sin_sq_add_cos_sq yaw
  rw [ofHalfAngles_eq, sin_two_mul, cos_two_mul', cos_two_mul']
  dsimp only
  constructor
  · linear_combination
      2 * cos roll * sin roll * (cos pitch ^ 2 - sin pitch ^ 2) * hy
  · linear_combination
      -(sin pitch ^ 2 + cos pitch ^ 2) * (sin yaw ^ 2 + cos yaw ^ 2) * hr -
        (sin yaw ^ 2 + cos yaw ^ 2) * hp - hy +
        (cos roll ^ 2 - sin roll ^ 2) * (cos pitch ^ 2 - sin pitch ^ 2) * hy

theorem ofHalfAngles_pitch :
    2 * ((ofHalfAngles roll pitch yaw).re * (ofHalfAngles roll pitch yaw).imJ -
        (ofHalfAngles roll pitch yaw).imK * (ofHalfAngles roll pitch yaw).imI) =
      sin (2 * pitch) := by
  have hr := sin_sq_add_cos_sq roll
  have hy := sin_sq_add_cos_sq yaw
  rw [ofHalfAngles_eq, sin_two_mul]
  dsimp only
  linear_combination
    2 * sin pitch * cos pitch * (sin yaw ^ 2 + cos yaw ^ 2) * hr + 2 * sin pitch * cos pitch * hy

theorem ofHalfAngles_yaw :
    2 * ((ofHalfAngles roll pitch yaw).re * (ofHalfAngles roll pitch yaw).imK +
        (ofHalfAngles roll pitch yaw).imI * (ofHalfAngles roll pitch yaw).imJ) =
      cos (2 * pitch) * sin (2 * yaw) ∧
    1 - 2 * ((ofHalfAngles roll pitch yaw).imJ * (ofHalfAngles roll pitch yaw).imJ +
        (ofHalfAngles roll pitch yaw).imK * (ofHalfAngles roll pitch yaw).imK) =
      cos (2 * pitch) * cos (2 * yaw) := by
  have hr := sin_sq_add_cos_sq roll
  have hp := sin_sq_add_cos_sq pitch
  have hy := sin_sq_add_cos_sq yaw
  rw [ofHalfAngles_eq, sin_two_mul, cos_two_mul', cos_two_mul']
  dsimp only
  constructor
  · linear_combination
      2 * cos yaw * sin yaw * (cos pitch ^ 2 - sin pitch ^ 2) * hr
  · linear_combination
      -(sin pitch ^ 2 + cos pitch ^ 2) * (sin roll ^ 2 + cos roll ^ 2) * hy -
        (sin roll ^ 2 + cos roll ^ 2) * hp - hr +
        (cos yaw ^ 2 - sin yaw ^ 2) * (cos pitch ^ 2 - sin pitch ^ 2) * hr

variable {r θ : ℝ} (hr : 0 < r)
include hr

/-- The angle of a point at distance `r`, modulo a turn. -/
theorem arg_polar_eq_toIocMod :
    Complex.arg ⟨r * cos θ, r * sin θ⟩ = toIocMod two_pi_pos (-π) θ := by
  have hpolar : (⟨r * cos θ, r * sin θ⟩ : ℂ) =
      r * (Complex.cos θ + Complex.sin θ * Complex.I) := by
    apply Complex.ext <;> simp [← Complex.ofReal_cos, ← Complex.ofReal_sin]
  rw [hpolar, Complex.arg_mul_cos_add_sin_mul_I_eq_toIocMod hr]

theorem arg_polar (hθ : θ ∈ Set.Ioc (-π) π) : Complex.arg ⟨r * cos θ, r * sin θ⟩ = θ := by
  rw [arg_polar_eq_toIocMod hr, toIocMod_eq_self]
  have hturn : -π + 2 * π = π := by ring
  rwa [hturn]

end Angles

/-! ### The exponential series -/

/-- `cos x` by three terms of its series, `s` being the square of `x`. -/
noncomputable def cosSeries (s : ℝ) : ℝ := 1 - s / 2 + s ^ 2 / 24

/-- `sin x / x` by three terms of its series, `s` being the square of `x`. -/
noncomputable def sincSeries (s : ℝ) : ℝ := 1 - s / 6 + s ^ 2 / 120

/-- The exponential of the vector `(x, y, z)`, by the truncated series. -/
noncomputable def expSeries (x y z : ℝ) : ℍ[ℝ] :=
  let s := x ^ 2 + y ^ 2 + z ^ 2
  ⟨cosSeries s, x * sincSeries s, y * sincSeries s, z * sincSeries s⟩

theorem normSq_expSeries (x y z : ℝ) :
    normSq (expSeries x y z) =
      cosSeries (x ^ 2 + y ^ 2 + z ^ 2) ^ 2 +
        (x ^ 2 + y ^ 2 + z ^ 2) * sincSeries (x ^ 2 + y ^ 2 + z ^ 2) ^ 2 := by
  rw [normSq_def', expSeries]
  ring

/-- The series of the sine has no zero but the one at zero. -/
theorem sincSeries_ge (s : ℝ) : 1 / 6 ≤ sincSeries s := by
  have hsquare := sq_nonneg (s - 10)
  have hshift : sincSeries s = 1 / 6 + (s - 10) ^ 2 / 120 := by
    rw [sincSeries]
    ring
  linarith

/-- The series of the cosine is not zero below 1. -/
theorem cosSeries_ge {s : ℝ} (h : s ≤ 1) : 1 / 2 ≤ cosSeries s := by
  have hsquare := sq_nonneg s
  rw [cosSeries]
  linarith

/-- Below 1 the cosine keeps the norm away from zero, above 1 the sine does. -/
theorem normSq_expSeries_ge (x y z : ℝ) : 1 / 36 ≤ normSq (expSeries x y z) := by
  rw [normSq_expSeries]
  have hs : 0 ≤ x ^ 2 + y ^ 2 + z ^ 2 := by positivity
  generalize x ^ 2 + y ^ 2 + z ^ 2 = s at hs ⊢
  have hcos := sq_nonneg (cosSeries s)
  have hsin : (1 / 6) ^ 2 ≤ sincSeries s ^ 2 :=
    pow_le_pow_left₀ (by norm_num) (sincSeries_ge s) 2
  rcases le_total s 1 with hle | hge
  · have hlarge : (1 / 2) ^ 2 ≤ cosSeries s ^ 2 :=
      pow_le_pow_left₀ (by norm_num) (cosSeries_ge hle) 2
    have hnonneg : 0 ≤ s * sincSeries s ^ 2 := mul_nonneg hs (sq_nonneg _)
    linarith
  · have hlarge : 1 * (1 / 6) ^ 2 ≤ s * sincSeries s ^ 2 :=
      mul_le_mul hge hsin (by norm_num) hs
    linarith

/-! ### Normalising -/

theorem normSq_normalize {q : ℍ[ℝ]} (h : 0 < normSq q) :
    normSq ((1 / √(normSq q)) • q) = 1 := by
  rw [normSq_smul, div_pow, one_pow, Real.sq_sqrt h.le]
  exact one_div_mul_cancel h.ne'

end NuedcFirmware.Lib
