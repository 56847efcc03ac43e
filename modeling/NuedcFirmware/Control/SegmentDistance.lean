import Mathlib
import NuedcFirmware.Control.Odometry

/-!
The segment distance is the length of the way, so it bounds how far the car is from where
the segment began.

In the plane a tick moves the car by a vector of length `|ds|` (`dist_place_tick`), which is
what it adds to the segment distance. Between resets the lengths add up and the triangle
inequality does the rest (`dist_place_exec`).
-/

namespace NuedcFirmware.Control.SegmentDistance

open NuedcFirmware.Lib NuedcFirmware.Platform NuedcFirmware.Common NuedcFirmware.Modules

/-- The call begins a segment. -/
def IsReset {F : Type*} : ChassisCall F → Prop
  | .resetOdometry _ _ | .resetSegmentDistance => True
  | _ => False

/-! ### In the plane -/

/-- Where the car is. -/
def place (o : Odometry ℝ) : ℂ := ⟨o.pose.x, o.pose.y⟩

theorem norm_polar (r phi : ℝ) : ‖(⟨r * Real.cos phi, r * Real.sin phi⟩ : ℂ)‖ = |r| := by
  rw [Complex.norm_eq_sqrt_sq_add_sq, ← Real.sqrt_sq_eq_abs]
  congr 1
  linear_combination r ^ 2 * Real.cos_sq_add_sin_sq phi

section Step

variable (o : Odometry ℝ)

/-- A tick moves the car as far as it adds to the segment distance. -/
theorem dist_place_tick (delta : Wheel → Int32) :
    dist (place o) (place (o.tick delta)) = (o.tick delta).segmentDistCm - o.segmentDistCm := by
  let ds : ℝ := 0.5 * (travelCm o.config.leftPulsesPerCm (delta .left) +
    travelCm o.config.rightPulsesPerCm (delta .right))
  let mid : ℝ := o.pose.theta + 0.5 * ((travelCm o.config.rightPulsesPerCm (delta .right) -
    travelCm o.config.leftPulsesPerCm (delta .left)) / o.config.wheelBaseCm)
  have hplace : place (o.tick delta) = place o + ⟨ds * Real.cos mid, ds * Real.sin mid⟩ := rfl
  have hsegment : (o.tick delta).segmentDistCm = o.segmentDistCm + |ds| := rfl
  rw [hplace, hsegment, dist_self_add_right, norm_polar, add_sub_cancel_left]

theorem dist_place_step {call : ChassisCall ℝ} (h : ¬ IsReset call) :
    dist (place o) (place (o.step call)) ≤ (o.step call).segmentDistCm - o.segmentDistCm := by
  cases call with
  | tick delta run nowMs => exact (dist_place_tick o delta).le
  | resetOdometry pose b => exact absurd trivial h
  | resetSegmentDistance => exact absurd trivial h
  | _ =>
      show dist (place o) (place o) ≤ o.segmentDistCm - o.segmentDistCm
      rw [dist_self, sub_self]

theorem segmentDistCm_le_step {call : ChassisCall ℝ} (h : ¬ IsReset call) :
    o.segmentDistCm ≤ (o.step call).segmentDistCm :=
  sub_nonneg.mp (dist_nonneg.trans (dist_place_step o h))

end Step

/-! ### Runs -/

/-- Between resets. -/
theorem dist_place_exec (o : Odometry ℝ) {calls : List (ChassisCall ℝ)}
    (h : ∀ call ∈ calls, ¬ IsReset call) :
    dist (place o) (place (exec Odometry.step o calls)) ≤
      (exec Odometry.step o calls).segmentDistCm - o.segmentDistCm := by
  induction calls generalizing o with
  | nil =>
      rw [exec_nil, dist_self, sub_self]
  | cons call calls ih =>
      have hcall := dist_place_step o (h call List.mem_cons_self)
      have hrest := ih (o.step call) fun c hc => h c (List.mem_cons_of_mem _ hc)
      have htriangle := dist_triangle (place o) (place (o.step call))
        (place (exec Odometry.step o (call :: calls)))
      rw [exec_cons] at htriangle ⊢
      linarith

theorem segmentDistCm_nonneg_step {o : Odometry ℝ} (h : 0 ≤ o.segmentDistCm)
    (call : ChassisCall ℝ) : 0 ≤ (o.step call).segmentDistCm := by
  by_cases hreset : IsReset call
  · have hzero : (o.step call).segmentDistCm = 0.0 := by
      cases call <;> first | rfl | exact absurd hreset id
    rw [hzero]
    norm_num
  · exact h.trans (segmentDistCm_le_step o hreset)

/-! ### The chassis -/

/-- Euclidean distance of two poses. -/
noncomputable def displacement (pose pose' : ControlPose2D ℝ) : ℝ :=
  √((pose.x - pose'.x) ^ 2 + (pose.y - pose'.y) ^ 2)

theorem displacement_eq_dist (o o' : Odometry ℝ) :
    displacement o.pose o'.pose = dist (place o) (place o') := by
  rw [Complex.dist_eq_re_im]
  rfl

/-- The segment distance is no less than 0, and what odometry divides by is positive. -/
structure Sound (d : Drivetrain ℝ) : Prop where
  segmentDistCm : 0 ≤ d.chassis.segmentDistCm
  config : Divisible d.chassis.config

/-- The segment distance only grows, unless the call begins a segment. -/
def Grows (d : Drivetrain ℝ) (call : ChassisCall ℝ) : Prop :=
  ¬ IsReset call → d.chassis.segmentDistCm ≤ (d.step call).chassis.segmentDistCm

/-- A tick leaves the heading in `[-pi, pi]`. It is what the two loops of `wrap_pi_local`
arrive at: each of them exits, and further rounds would change nothing. -/
def HeadingWrapped (d : Drivetrain ℝ) (call : ChassisCall ℝ) : Prop :=
  ∀ delta run nowMs, call = .tick delta run nowMs →
    let theta := (d.step call).chassis.pose.theta
    |theta| ≤ mPi ∧
      ∃ y rounds, y ≤ mPi ∧ (∀ fuel ≥ rounds, wrapDown fuel (d.chassis.odometry.turned delta) = y) ∧
        ∀ fuel ≥ rounds, wrapUp fuel y = theta

/-- The invariant. -/
structure Inv (d : Drivetrain ℝ) : Prop where
  settled : d.Settled
  segmentDistCm : 0 ≤ d.chassis.segmentDistCm
  config : Divisible d.chassis.config

theorem inv_init (config : ControlChassisConfig ℝ) (speedKp speedKi speedKd : ℝ) (b : Board)
    (motor : BspMotor) : Inv (Drivetrain.init config speedKp speedKi speedKd b motor) where
  settled := settled_init ..
  segmentDistCm := by
    show (0 : ℝ) ≤ 0.0
    norm_num
  config := divisible_normalizeConfig config

section Step

variable {d : Drivetrain ℝ} (h : Inv d) (call : ChassisCall ℝ)
include h

theorem inv_step : Inv (d.step call) where
  settled := h.settled.step call
  segmentDistCm := by
    have hodometry := congrArg Odometry.segmentDistCm (odometry_step h.settled call)
    exact (segmentDistCm_nonneg_step h.segmentDistCm call).trans_eq hodometry.symm
  config := by
    have hconfig : (d.step call).chassis.config = d.chassis.config :=
      (congrArg Odometry.config (odometry_step h.settled call)).trans
        (config_exec d.chassis.odometry [call])
    rw [hconfig]
    exact h.config

theorem grows : Grows d call := by
  intro hreset
  have hodometry := congrArg Odometry.segmentDistCm (odometry_step h.settled call)
  exact (segmentDistCm_le_step d.chassis.odometry hreset).trans_eq hodometry.symm

theorem headingWrapped : HeadingWrapped d call := by
  rintro delta run nowMs rfl
  have htheta : (d.step (.tick delta run nowMs)).chassis.pose.theta =
      wrapPiLocal (d.chassis.odometry.turned delta) :=
    (congrArg (fun o => o.pose.theta) (odometry_step h.settled _)).trans (theta_tick _ delta)
  dsimp only
  rw [htheta]
  exact ⟨abs_le.mpr (wrapPiLocal_mem _), wrapPiLocal_terminates _⟩

end Step

/-- Over all sequences of calls after `Control_Chassis_Init`, in exact arithmetic. The
third part is about any stretch of calls without a reset, and so about all that follow the
latest one. -/
theorem segment_bounds_displacement (config : ControlChassisConfig ℝ)
    (speedKp speedKi speedKd : ℝ) (b : Board) (motor : BspMotor) (calls : List (ChassisCall ℝ)) :
    let start := Drivetrain.init config speedKp speedKi speedKd b motor
    EachState Drivetrain.step Sound start calls ∧ EachStep Drivetrain.step Grows start calls ∧
      (∀ before since, calls = before ++ since → (∀ call ∈ since, ¬ IsReset call) →
        displacement (exec Drivetrain.step start before).chassis.pose
            (exec Drivetrain.step start calls).chassis.pose ≤
          (exec Drivetrain.step start calls).chassis.segmentDistCm) ∧
      EachStep Drivetrain.step HeadingWrapped start calls := by
  intro start
  have hstart : Inv start := inv_init ..
  have hexec : ∀ run, Inv (exec Drivetrain.step start run) :=
    exec_invariant (fun _ call h => inv_step h call) hstart
  refine ⟨?_, ?_, ?_, ?_⟩
  · rintro before since -
    exact ⟨(hexec before).segmentDistCm, (hexec before).config⟩
  · exact EachStep.of_invariant (fun _ call h => inv_step h call) (fun _ call h => grows h call)
      hstart
  · rintro before since rfl hsince
    have hbefore := hexec before
    have hodometry := odometry_exec hbefore.settled since
    have hdist := dist_place_exec (exec Drivetrain.step start before).chassis.odometry hsince
    rw [← hodometry, ← displacement_eq_dist, ← exec_append] at hdist
    exact hdist.trans (sub_le_self _ hbefore.segmentDistCm)
  · exact EachStep.of_invariant (fun _ call h => inv_step h call)
      (fun _ call h => headingWrapped h call) hstart

end NuedcFirmware.Control.SegmentDistance
