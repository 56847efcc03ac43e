import NuedcFirmware.Lib.Turns
import NuedcFirmware.Modules.Attitude

/-!
The continuous yaw of `euler_from_quat`, in exact arithmetic.

`wrap_degrees_180` brings an angle into `(-180, 180]` by whole turns, so it is the
representative that Mathlib calls `toIocMod`. The yaw goes on from its last value by the
wrapped difference, which makes it the unwrapping of the angles that `atan2` gives
(`continuousYaw_eq_unwrap`): it never loses a turn as long as the heading moves by less
than half a turn from one sample to the next.
-/

namespace NuedcFirmware.Modules.YawUnwrap

open NuedcFirmware.Lib Icm45688 Attitude

/-! ### `wrap_degrees_180` -/

theorem wrapDown_eq_whileLoop (fuel : ℕ) (x : ℝ) :
    wrapDown fuel x = whileLoop (· > 180.0) (· - 360.0) fuel x := by
  induction fuel generalizing x with
  | zero => rfl
  | succ fuel ih => rw [wrapDown, whileLoop, ih]

theorem wrapUp_eq_whileLoop (fuel : ℕ) (x : ℝ) :
    wrapUp fuel x = whileLoop (· ≤ -180.0) (· + 360.0) fuel x := by
  induction fuel generalizing x with
  | zero => rfl
  | succ fuel ih => rw [wrapUp, whileLoop, ih]

theorem one_le_turn : (1 : ℝ) ≤ 360.0 := by norm_num

theorem pos_of_gt (x : ℝ) (hx : x > 180.0) : 0 < x := by
  norm_num at hx
  linarith

theorem neg_of_le (x : ℝ) (hx : x ≤ -180.0) : x < 0 := by
  norm_num at hx
  linarith

theorem wrapDown_le {x : ℝ} {fuel : ℕ} (hfuel : |x| ≤ fuel) : wrapDown fuel x ≤ 180 := by
  rw [wrapDown_eq_whileLoop]
  have hexit := not_cond_descend one_le_turn pos_of_gt ((le_abs_self x).trans hfuel)
  norm_num at hexit ⊢
  exact hexit

/-- The first loop goes no further down than the angle can be. -/
theorem neg_abs_le_wrapDown (fuel : ℕ) (x : ℝ) : -|x| ≤ wrapDown fuel x := by
  rw [wrapDown_eq_whileLoop]
  refine (whileLoop_invariant (I := fun y => -|x| ≤ y ∧ y ≤ |x|) (fun y hy hcond => ?_)
    ⟨neg_abs_le x, le_abs_self x⟩ fuel).1
  norm_num at hcond ⊢
  constructor <;> linarith [hy.1, hy.2]

theorem lt_wrapUp {x : ℝ} {fuel : ℕ} (hfuel : -x ≤ fuel) : -180 < wrapUp fuel x := by
  rw [wrapUp_eq_whileLoop]
  have hexit := not_cond_ascend one_le_turn neg_of_le hfuel
  norm_num at hexit ⊢
  exact hexit

/-- The second loop goes no higher than the angle was. -/
theorem wrapUp_le {x : ℝ} (hx : x ≤ 180) (fuel : ℕ) : wrapUp fuel x ≤ 180 := by
  rw [wrapUp_eq_whileLoop]
  refine whileLoop_invariant (I := fun y => y ≤ 180) (fun y _ hcond => ?_) hx fuel
  norm_num at hcond ⊢
  linarith

theorem fuel_of_wrapDown (x : ℝ) :
    -wrapDown ((truncate x).natAbs + 1) x ≤ ((truncate x).natAbs + 1 : ℕ) := by
  have hfuel := abs_le_natAbs_truncate x
  have hdown := neg_abs_le_wrapDown ((truncate x).natAbs + 1) x
  linarith

/-- Both loops exit: from some number of rounds on, more rounds change nothing, and what
`wrap_degrees_180` returns is where the second loop exits. -/
theorem wrapDegrees180_terminates (x : ℝ) :
    ∃ y rounds, y ≤ 180 ∧ (∀ fuel ≥ rounds, wrapDown fuel x = y) ∧
      -180 < wrapDegrees180 x ∧ ∀ fuel ≥ rounds, wrapUp fuel y = wrapDegrees180 x := by
  have hfuel := abs_le_natAbs_truncate x
  refine ⟨wrapDown ((truncate x).natAbs + 1) x, (truncate x).natAbs + 1, wrapDown_le hfuel,
    fun fuel hle => ?_, lt_wrapUp (fuel_of_wrapDown x), fun fuel hle => ?_⟩
  · rw [wrapDown_eq_whileLoop, wrapDown_eq_whileLoop]
    exact descend_of_le one_le_turn pos_of_gt ((le_abs_self x).trans hfuel) hle
  · rw [wrapDegrees180, wrapUp_eq_whileLoop, wrapUp_eq_whileLoop]
    exact ascend_of_le one_le_turn neg_of_le (fuel_of_wrapDown x) hle

theorem turn_pos : (0 : ℝ) < 360 := by norm_num

/-- The angle that `wrap_degrees_180` returns. -/
theorem wrapDegrees180_eq (x : ℝ) : wrapDegrees180 x = toIocMod turn_pos (-180) x := by
  symm
  rw [toIocMod_eq_iff]
  refine ⟨⟨lt_wrapUp (fuel_of_wrapDown x), ?_⟩, ?_⟩
  · have hle := wrapUp_le (wrapDown_le (abs_le_natAbs_truncate x)) ((truncate x).natAbs + 1)
    refine hle.trans ?_
    norm_num
  · have hturn : (360.0 : ℝ) = 360 := by norm_num
    have hmod : wrapDegrees180 x ≡ x [PMOD 360] := by
      rw [wrapDegrees180, wrapUp_eq_whileLoop, wrapDown_eq_whileLoop, hturn]
      exact (modEq_ascend _ _).trans (modEq_descend _ _)
    obtain ⟨k, hk⟩ := AddCommGroup.modEq_iff_zsmul.mp hmod
    exact ⟨k, by rw [hk]; ring⟩

/-! ### The continuous yaw -/

section Definitions

variable {F : Type*} [CMath F]

/-- The angle `yaw_wrapped_deg` that `atan2` gives `euler_from_quat`. -/
def yawWrappedDeg (dev : Icm45688 F) : F :=
  atan2f (2.0 * (dev.quatW * dev.quatZ + dev.quatX * dev.quatY))
    (1.0 - 2.0 * (dev.quatY * dev.quatY + dev.quatZ * dev.quatZ)) * radToDeg

/-- The yaw that `euler_from_quat` makes of its previous value and the wrapped angle. -/
def continuousYaw (previousYawDeg yawWrappedDeg : F) : F :=
  previousYawDeg + wrapDegrees180 (yawWrappedDeg - wrapDegrees180 previousYawDeg)

theorem yawDeg_eulerFromQuat (dev : Icm45688 F) :
    dev.eulerFromQuat.yawDeg = continuousYaw dev.yawDeg (yawWrappedDeg dev) := rfl

end Definitions

/-- Wrapping the previous yaw first makes no difference to the wrapped difference. -/
theorem continuousYaw_eq_unwrap (previousYawDeg yawWrappedDeg : ℝ) :
    continuousYaw previousYawDeg yawWrappedDeg =
      unwrap turn_pos 180 previousYawDeg yawWrappedDeg := by
  rw [continuousYaw, wrapDegrees180_eq, wrapDegrees180_eq, unwrap]
  have hdifference : yawWrappedDeg - toIocMod turn_pos (-180) previousYawDeg =
      yawWrappedDeg - previousYawDeg + toIocDiv turn_pos (-180) previousYawDeg • (360 : ℝ) := by
    rw [toIocMod]
    ring
  rw [hdifference, toIocMod_add_zsmul]

/-- The yaw is the wrapped angle modulo a turn, and it has moved by half a turn at most. -/
def Follows (yawDeg yawWrappedDeg : ℝ) : Prop :=
  continuousYaw yawDeg yawWrappedDeg ≡ yawWrappedDeg [PMOD 360] ∧
    continuousYaw yawDeg yawWrappedDeg - yawDeg ∈ Set.Ioc (-180) 180

theorem follows (yawDeg yawWrappedDeg : ℝ) : Follows yawDeg yawWrappedDeg := by
  rw [Follows, continuousYaw_eq_unwrap]
  refine ⟨modEq_unwrap .., ?_⟩
  have hmem : unwrap turn_pos 180 yawDeg yawWrappedDeg - yawDeg ∈ _ :=
    unwrap_sub_mem turn_pos yawDeg yawWrappedDeg
  norm_num at hmem ⊢
  exact hmem

theorem continuousYaw_eq {yawDeg yawWrappedDeg heading : ℝ}
    (hmod : heading ≡ yawWrappedDeg [PMOD 360]) (hnear : |heading - yawDeg| < 180) :
    continuousYaw yawDeg yawWrappedDeg = heading := by
  rw [continuousYaw_eq_unwrap]
  refine unwrap_eq turn_pos hmod ?_
  rw [abs_lt] at hnear
  constructor <;> linarith [hnear.1, hnear.2]

/-- A heading that moves by less than half a turn at a time is followed. -/
theorem exec_continuousYaw {yawDeg : ℝ} {heading wrapped : ℕ → ℝ}
    (hmod : ∀ k, heading k ≡ wrapped k [PMOD 360])
    (hmoves : ∀ k, |heading (k + 1) - heading k| < 180) (hfirst : |heading 0 - yawDeg| < 180)
    (k : ℕ) : exec continuousYaw yawDeg ((List.range (k + 1)).map wrapped) = heading k := by
  induction k with
  | zero => exact continuousYaw_eq (hmod 0) hfirst
  | succ k ih =>
      rw [List.range_succ, List.map_append, exec_append, ih]
      exact continuousYaw_eq (hmod (k + 1)) (hmoves k)

/-! ### The device -/

/-- The device as `update_mahony_attitude` gives it to `euler_from_quat`. -/
noncomputable def rotated (dev : Icm45688 ℝ) : Icm45688 ℝ :=
  (lockedRates dev).1.rotateQuat (lockedRates dev).2.1 (lockedRates dev).2.2.1
    (lockedRates dev).2.2.2

theorem yawDeg_lockedRates (dev : Icm45688 ℝ) : (lockedRates dev).1.yawDeg = dev.yawDeg := by
  obtain ⟨_, _, _, hwrites⟩ := dev.mahonyRates_writes
  rw [lockedRates]
  dsimp only
  split_ifs <;> rw [hwrites]

/-- A device that is not locked goes on to the angle of its rotated quaternion. -/
theorem yawDeg_updateMahonyAttitude {dev : Icm45688 ℝ} (h : UnitQuat dev)
    (hunlocked : dev.yawShouldLock = false) :
    dev.updateMahonyAttitude.yawDeg = continuousYaw dev.yawDeg (yawWrappedDeg (rotated dev)) := by
  have hrated : UnitQuat (lockedRates dev).1 := by
    rw [UnitQuat, quat_lockedRates]
    exact h
  have hyaw : (rotated dev).yawDeg = dev.yawDeg := by
    rw [rotated, rotateQuat_eq, if_pos (quatNormSq_turned hrated _ _ _)]
    exact yawDeg_lockedRates dev
  rw [updateMahonyAttitude_eq, hunlocked, ← hyaw, ← yawDeg_eulerFromQuat]
  rfl

/-- An unlocked update of one device leaves the yaw that the next one begins with. -/
structure UnlockedUpdate (dev dev' : Icm45688 ℝ) : Prop where
  unit : UnitQuat dev
  unlocked : dev.yawShouldLock = false
  yaw : dev'.yawDeg = dev.updateMahonyAttitude.yawDeg

/-- Over a sequence of unlocked updates the yaw goes through the angles that they see. -/
theorem yawDeg_eq_exec {dev : ℕ → Icm45688 ℝ} (h : ∀ k, UnlockedUpdate (dev k) (dev (k + 1)))
    (k : ℕ) :
    (dev k).updateMahonyAttitude.yawDeg =
      exec continuousYaw (dev 0).yawDeg
        ((List.range (k + 1)).map fun k => yawWrappedDeg (rotated (dev k))) := by
  have hstep : ∀ k, (dev k).updateMahonyAttitude.yawDeg =
      continuousYaw (dev k).yawDeg (yawWrappedDeg (rotated (dev k))) := fun k =>
    yawDeg_updateMahonyAttitude (h k).unit (h k).unlocked
  induction k with
  | zero => exact hstep 0
  | succ k ih =>
      rw [hstep, (h k).yaw, ih, List.range_succ (n := k + 1), List.map_append, exec_append]
      rfl

/-- The yaw of `euler_from_quat` in exact arithmetic, whatever angles `atan2` gives: after
every update the yaw is the angle modulo 360 and has moved by more than -180 and at most
180. So it follows every heading that is the angle modulo 360, that begins less than 180
away from the yaw, as one that begins at the yaw does, and that moves by less than 180 from
one update to the next; and the device follows it over any sequence of unlocked updates.
Both loops of `wrap_degrees_180` exit. -/
theorem yaw_unwrapped :
    (∀ dev : Icm45688 ℝ,
      dev.eulerFromQuat.yawDeg = continuousYaw dev.yawDeg (yawWrappedDeg dev)) ∧
    (∀ (yawDeg : ℝ) (wrapped : List ℝ), EachStep continuousYaw Follows yawDeg wrapped) ∧
    (∀ (yawDeg : ℝ) (heading wrapped : ℕ → ℝ), (∀ k, heading k ≡ wrapped k [PMOD 360]) →
      (∀ k, |heading (k + 1) - heading k| < 180) → |heading 0 - yawDeg| < 180 →
        ∀ k, exec continuousYaw yawDeg ((List.range (k + 1)).map wrapped) = heading k) ∧
    (∀ (dev : ℕ → Icm45688 ℝ) (heading : ℕ → ℝ),
      (∀ k, UnlockedUpdate (dev k) (dev (k + 1))) →
      (∀ k, heading k ≡ yawWrappedDeg (rotated (dev k)) [PMOD 360]) →
      (∀ k, |heading (k + 1) - heading k| < 180) → |heading 0 - (dev 0).yawDeg| < 180 →
        ∀ k, (dev k).updateMahonyAttitude.yawDeg = heading k) ∧
    ∀ x : ℝ, ∃ y rounds, y ≤ 180 ∧ (∀ fuel ≥ rounds, wrapDown fuel x = y) ∧
      -180 < wrapDegrees180 x ∧ ∀ fuel ≥ rounds, wrapUp fuel y = wrapDegrees180 x := by
  refine ⟨yawDeg_eulerFromQuat, fun yawDeg wrapped => ?_, ?_, ?_, wrapDegrees180_terminates⟩
  · exact EachStep.of_invariant (I := fun _ => True) (fun _ _ _ => trivial)
      (fun yawDeg wrapped _ => follows yawDeg wrapped) trivial
  · intro yawDeg heading wrapped hmod hmoves hfirst k
    exact exec_continuousYaw hmod hmoves hfirst k
  · intro dev heading hupdates hmod hmoves hfirst k
    rw [yawDeg_eq_exec hupdates]
    exact exec_continuousYaw hmod hmoves hfirst k

/-- Nine updates that turn by 100 degrees each, seen in `(-180, 180]`. -/
theorem yaw_unwrapped_turning :
    exec continuousYaw 0 ((List.range (8 + 1)).map fun k : ℕ => wrapDegrees180 (100 * (k + 1 : ℝ))) =
      100 * ((8 : ℕ) + 1) := by
  refine yaw_unwrapped.2.2.1 0 (fun k => 100 * (k + 1)) _ (fun k => ?_) (fun k => ?_) ?_ 8
  · rw [wrapDegrees180_eq, AddCommGroup.modEq_iff_zsmul]
    refine ⟨-toIocDiv turn_pos (-180) (100 * (k + 1)), ?_⟩
    rw [toIocMod, neg_zsmul]
    ring
  · push_cast
    rw [show (100 * ((k : ℝ) + 1 + 1) - 100 * (k + 1)) = 100 by ring]
    norm_num
  · norm_num

end NuedcFirmware.Modules.YawUnwrap
