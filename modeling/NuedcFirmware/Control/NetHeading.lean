import NuedcFirmware.Control.Odometry

/-!
The heading and the net motion of the wheels.

Odometry drops the sign of what a wheel has been turned, so the heading follows the paths
of the wheels, however the pulses are split over ticks (`theta_exec`). The encoder totals
follow the net motion (`total_exec`). A path is the net motion and twice what went
backward (`pathPulses_eq`), so the two agree modulo a turn exactly where the backward parts
of the two wheels make up whole half turns.
-/

namespace NuedcFirmware.Control.NetHeading

open NuedcFirmware.Lib NuedcFirmware.Platform NuedcFirmware.Common NuedcFirmware.Modules

section Pulses

variable {F : Type*} (w : Wheel) (call : ChassisCall F) (calls : List (ChassisCall F))

/-- The call begins odometry anew. -/
def IsResetOdometry : ChassisCall F → Prop
  | .resetOdometry _ _ => True
  | _ => False

/-- The pulses a wheel is turned before the call is made. -/
def pulses : ChassisCall F → ℤ
  | .tick delta _ _ => (delta w).toInt
  | _ => 0

def netPulses : ℤ := (calls.map (pulses w)).sum

def pathPulses : ℤ := (calls.map fun call => |pulses w call|).sum

/-- The pulses that ticks saw a wheel turned backward. -/
def backwardPulses : ℤ := (calls.map fun call => max 0 (-pulses w call)).sum

theorem pathPulses_eq : pathPulses w calls = netPulses w calls + 2 * backwardPulses w calls := by
  have habs : ∀ n : ℤ, |n| = n + 2 * max 0 (-n) := fun n => by
    rcases abs_cases n with ⟨h, _⟩ | ⟨h, _⟩ <;> omega
  rw [pathPulses, netPulses, backwardPulses, ← List.sum_map_mul_left, ← List.sum_map_add]
  simp only [habs]

end Pulses

/-! ### The paths make the heading -/

/-- The heading that the wheels turn the car by, from pulses. -/
noncomputable def turnOf (config : ControlChassisConfig ℝ) (left right : ℤ) : ℝ :=
  (right / config.rightPulsesPerCm - left / config.leftPulsesPerCm) / config.wheelBaseCm

theorem turnOf_add (config : ControlChassisConfig ℝ) (l r l' r' : ℤ) :
    turnOf config (l + l') (r + r') = turnOf config l r + turnOf config l' r' := by
  simp only [turnOf]
  push_cast
  ring

theorem turnOf_two_mul (config : ControlChassisConfig ℝ) (l r : ℤ) :
    turnOf config (2 * l) (2 * r) = 2 * turnOf config l r := by
  simp only [turnOf]
  push_cast
  ring

section Odometry

variable (o : Odometry ℝ) {call : ChassisCall ℝ} {calls : List (ChassisCall ℝ)}

theorem theta_step (h : ¬ IsResetOdometry call) :
    (o.step call).pose.theta ≡
      o.pose.theta + turnOf o.config |pulses .left call| |pulses .right call| [PMOD 2 * mPi] := by
  cases call with
  | tick delta run nowMs =>
      have hturned : o.turned delta =
          o.pose.theta + turnOf o.config |(delta .left).toInt| |(delta .right).toInt| := by
        simp only [turnOf, Int.cast_abs]
        rfl
      refine (modEq_wrapPiLocal (o.turned delta)).trans ?_
      rw [hturned]
      exact AddCommGroup.modEq_refl _
  | resetOdometry pose b => exact absurd trivial h
  | _ =>
      show o.pose.theta ≡ o.pose.theta + turnOf o.config |0| |0| [PMOD 2 * mPi]
      simp [turnOf]

theorem theta_exec (h : ∀ call ∈ calls, ¬ IsResetOdometry call) :
    (exec Odometry.step o calls).pose.theta ≡
      o.pose.theta + turnOf o.config (pathPulses .left calls) (pathPulses .right calls)
        [PMOD 2 * mPi] := by
  induction calls generalizing o with
  | nil =>
      show o.pose.theta ≡ o.pose.theta + turnOf o.config 0 0 [PMOD 2 * mPi]
      simp [turnOf]
  | cons call calls ih =>
      have hcall := theta_step o (h call List.mem_cons_self)
      have hrest := ih (o.step call) fun c hc => h c (List.mem_cons_of_mem _ hc)
      rw [exec_cons]
      have hconfig : (o.step call).config = o.config := config_exec o [call]
      rw [hconfig] at hrest
      refine hrest.trans ((hcall.add_right _).trans ?_)
      simp only [pathPulses, List.map_cons, List.sum_cons, turnOf_add, add_assoc]
      exact AddCommGroup.modEq_refl _

end Odometry

/-! ### The totals count the net motion -/

section Total

variable {F : Type*} [CMath F] (d : Drivetrain F) {call : ChassisCall F}
  {calls : List (ChassisCall F)} (w : Wheel)

theorem total_step (h : ¬ IsResetOdometry call) :
    (d.step call).encoder.total w = d.encoder.total w + pulses w call := by
  cases call with
  | tick delta run nowMs =>
      exact congrFun (encoder_controlChassisTick d.chassis run nowMs (turnWheels delta d.encoder)
        d.motor).1 w
  | resetOdometry pose b => exact absurd trivial h
  | _ => exact (add_zero _).symm

theorem total_exec (h : ∀ call ∈ calls, ¬ IsResetOdometry call) :
    (exec Drivetrain.step d calls).encoder.total w = d.encoder.total w + netPulses w calls := by
  induction calls generalizing d with
  | nil => exact (add_zero _).symm
  | cons call calls ih =>
      rw [exec_cons, ih _ fun c hc => h c (List.mem_cons_of_mem _ hc),
        total_step d w (h call List.mem_cons_self), netPulses, netPulses, List.map_cons,
        List.sum_cons, add_assoc]

end Total

/-! ### Since a reset -/

/-- The heading is the one at the reset, turned by the net motion of the wheels. -/
def FollowsTotals (theta : ℝ) (d : Drivetrain ℝ) : Prop :=
  d.chassis.pose.theta ≡
    theta + turnOf d.chassis.config (bspEncoderGetTotal 0 d.encoder) (bspEncoderGetTotal 1 d.encoder)
      [PMOD 2.0 * mPi]

/-- The wheels were turned backward by the same way, up to half turns of the car. -/
def BackwardCancels (config : ControlChassisConfig ℝ) (calls : List (ChassisCall ℝ)) : Prop :=
  ∃ k : ℤ, turnOf config (backwardPulses .left calls) (backwardPulses .right calls) = k * mPi

theorem two_mul_modEq_zero_iff (x : ℝ) : 2 * x ≡ 0 [PMOD 2 * mPi] ↔ ∃ k : ℤ, x = k * mPi := by
  rw [AddCommGroup.modEq_zero_iff_eq_zsmul]
  refine exists_congr fun k => ?_
  rw [zsmul_eq_mul]
  constructor <;> intro h <;> linarith

/-- From a state whose totals are 0. -/
theorem followsTotals_exec_iff {d : Drivetrain ℝ} (hsettled : d.Settled)
    (htotal : ∀ w, d.encoder.total w = 0) {calls : List (ChassisCall ℝ)}
    (h : ∀ call ∈ calls, ¬ IsResetOdometry call) :
    FollowsTotals d.chassis.pose.theta (exec Drivetrain.step d calls) ↔
      BackwardCancels d.chassis.config calls := by
  have hodometry := odometry_exec hsettled calls
  have hconfig : (exec Drivetrain.step d calls).chassis.config = d.chassis.config :=
    (congrArg Odometry.config hodometry).trans (config_exec _ calls)
  have hnet : ∀ w, (exec Drivetrain.step d calls).encoder.total w = netPulses w calls := fun w => by
    rw [total_exec d w h, htotal, zero_add]
  have hpath := theta_exec d.chassis.odometry h
  rw [← hodometry, pathPulses_eq, pathPulses_eq, turnOf_add, turnOf_two_mul, ← add_assoc] at hpath
  have hfollows : FollowsTotals d.chassis.pose.theta (exec Drivetrain.step d calls) ↔
      (exec Drivetrain.step d calls).chassis.odometry.pose.theta ≡ d.chassis.odometry.pose.theta +
        turnOf d.chassis.odometry.config (netPulses .left calls) (netPulses .right calls)
          [PMOD 2 * mPi] := by
    have htwo : (2.0 : ℝ) = 2 := by norm_num
    rw [FollowsTotals, hconfig, htwo]
    show _ ≡ _ + turnOf _ ((exec Drivetrain.step d calls).encoder.total .left)
      ((exec Drivetrain.step d calls).encoder.total .right) [PMOD _] ↔ _
    rw [hnet, hnet]
    rfl
  rw [hfollows, BackwardCancels, ← two_mul_modEq_zero_iff, ← AddCommGroup.add_modEq_left]
  exact ⟨hpath.symm.trans, hpath.trans⟩

/-- The car as a reset of its odometry leaves it, at any point of a run from
`Control_Chassis_Init`. -/
noncomputable def resetAfter (config : ControlChassisConfig ℝ) (speedKp speedKi speedKd : ℝ)
    (b : Board) (motor : BspMotor) (before : List (ChassisCall ℝ)) (pose : ControlPose2D ℝ)
    (b' : Board) : Drivetrain ℝ :=
  (exec Drivetrain.step (Drivetrain.init config speedKp speedKi speedKd b motor) before).step
    (.resetOdometry pose b')

section Reset

variable (config : ControlChassisConfig ℝ) (speedKp speedKi speedKd : ℝ) (b : Board)
  (motor : BspMotor) (before : List (ChassisCall ℝ)) (pose : ControlPose2D ℝ) (b' : Board)

theorem settled_resetAfter :
    (resetAfter config speedKp speedKi speedKd b motor before pose b').Settled := by
  funext w
  cases w <;> rfl

theorem total_resetAfter (w : Wheel) :
    (resetAfter config speedKp speedKi speedKd b motor before pose b').encoder.total w = 0 := by
  cases w <;> rfl

theorem config_resetAfter :
    (resetAfter config speedKp speedKi speedKd b motor before pose b').chassis.config =
      normalizeConfig config := by
  have hodometry := odometry_exec (settled_init config speedKp speedKi speedKd b motor) before
  exact (congrArg Odometry.config hodometry).trans (config_exec _ before)

end Reset

/-- After a reset, however the wheels are turned: the heading is the one at the reset turned
by the net motion that the totals show, if and only if what ticks saw of the wheels going
backward cancels. -/
theorem follows_totals_iff (config : ControlChassisConfig ℝ) (speedKp speedKi speedKd : ℝ)
    (b : Board) (motor : BspMotor) (before : List (ChassisCall ℝ)) (pose : ControlPose2D ℝ)
    (b' : Board) {calls : List (ChassisCall ℝ)} (h : ∀ call ∈ calls, ¬ IsResetOdometry call) :
    FollowsTotals pose.theta
        (exec Drivetrain.step
          (resetAfter config speedKp speedKi speedKd b motor before pose b') calls) ↔
      BackwardCancels (normalizeConfig config) calls := by
  rw [← config_resetAfter config speedKp speedKi speedKd b motor before pose]
  exact followsTotals_exec_iff (settled_resetAfter ..) (fun _ => total_resetAfter ..) h

/-- A tick in which one wheel has been turned. -/
def turned (w : Wheel) (n : Int32) : ChassisCall ℝ :=
  .tick (Function.update 0 w n) false 0

theorem not_isResetOdometry_turned (w : Wheel) (n : Int32) : ¬ IsResetOdometry (turned w n) := id

/-- No configuration, so the defaults. -/
def noConfig : ControlChassisConfig ℝ := ⟨0, 0, 0, 0, 0, 0⟩

theorem normalizeConfig_noConfig :
    normalizeConfig noConfig = ⟨73.44, 73.14, 13.5, 0.00022, 1000, 0⟩ := by
  norm_num [normalizeConfig, noConfig]

/-- The left wheel is turned by ten pulses and back. -/
def forthAndBack : List (ChassisCall ℝ) := [turned .left 10, turned .left (-10)]

theorem forthAndBack_noReset : ∀ call ∈ forthAndBack, ¬ IsResetOdometry call := by
  simp [forthAndBack, not_isResetOdometry_turned]

theorem not_backwardCancels_forthAndBack :
    ¬ BackwardCancels (normalizeConfig noConfig) forthAndBack := by
  have hleft : backwardPulses .left forthAndBack = 10 := by decide
  have hright : backwardPulses .right forthAndBack = 0 := by decide
  rintro ⟨k, hk⟩
  rw [hleft, hright, normalizeConfig_noConfig] at hk
  -- about a hundredth of a radian to the right, which is less than a half turn
  have hpi : (3 : ℝ) < mPi := by norm_num [mPi]
  have hbounds : -1 < (k : ℝ) * mPi ∧ (k : ℝ) * mPi < 0 := by
    rw [← hk]
    norm_num [turnOf]
  rcases lt_or_ge k 0 with hneg | hnonneg
  · have hk1 : (k : ℝ) ≤ -1 := by exact_mod_cast Int.le_sub_one_of_lt hneg
    nlinarith [hbounds.1]
  · have hk0 : (0 : ℝ) ≤ k := by exact_mod_cast hnonneg
    nlinarith [hbounds.2]

/-- The default car, its odometry reset before it has moved. -/
noncomputable def carAtReset : Drivetrain ℝ :=
  resetAfter noConfig 18 0 0 Board.atReset (bspMotorInit Board.atReset) [] ⟨0, 0, 0⟩ Board.atReset

theorem follows_totals_iff_forthAndBack :
    FollowsTotals 0 (exec Drivetrain.step carAtReset forthAndBack) ↔
      BackwardCancels (normalizeConfig noConfig) forthAndBack :=
  follows_totals_iff noConfig 18 0 0 Board.atReset (bspMotorInit Board.atReset) [] ⟨0, 0, 0⟩
    Board.atReset forthAndBack_noReset

/-- The left wheel ends where it began, and the heading does not. -/
theorem forth_and_back_turns :
    (∀ w, (exec Drivetrain.step carAtReset forthAndBack).encoder.total w = 0) ∧
      ¬ FollowsTotals 0 (exec Drivetrain.step carAtReset forthAndBack) := by
  have hsettled : carAtReset.Settled := settled_resetAfter ..
  have htotal : ∀ w, carAtReset.encoder.total w = 0 := fun _ => total_resetAfter ..
  have hconfig : carAtReset.chassis.config = normalizeConfig noConfig := config_resetAfter ..
  refine ⟨fun w => ?_, fun hfollows => ?_⟩
  · rw [total_exec _ _ forthAndBack_noReset, htotal]
    cases w <;> decide
  · have hcancels := (followsTotals_exec_iff hsettled htotal forthAndBack_noReset).mp hfollows
    rw [hconfig] at hcancels
    exact not_backwardCancels_forthAndBack hcancels

end NuedcFirmware.Control.NetHeading
