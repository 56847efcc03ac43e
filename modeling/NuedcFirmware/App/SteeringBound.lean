import NuedcFirmware.App.Steering
import NuedcFirmware.Modules.LinePosition

/-!
How far the car steers.

The line PID of the car sees a bias in `[-1, 1]` and remembers an error in `[-1, 1]`,
however old, so proportional and derivative part together ask for at most
`0.18 + 0.02 * 2 = 0.22`; a lost line asks for 0.18. The limits of 40 are out of reach.
The bounds are carried as an invariant (`Inv`) over runs in which the sensor may read
anything.
-/

namespace NuedcFirmware.App.SteeringBound

open NuedcFirmware.Lib NuedcFirmware.Platform NuedcFirmware.Common NuedcFirmware.Modules
open NuedcFirmware.Control

/-- The line PID of `App_Init`. -/
def initialLinePid {F : Type*} [CMath F] : PID F :=
  pidInit 0.18 0.0 0.02 (-appLineTurnLimit) appLineTurnLimit

/-! ### One turn -/

section Turn

/-- A line PID of the car that remembers an error in `[-1, 1]`. -/
structure Tame (pid : PID ℝ) : Prop where
  tuning : pid.SameTuning initialLinePid
  prevErr : |pid.prevErr| ≤ 1
  unlimited : pid.lastOutput = pid.lastRawOutput

theorem tame_initialLinePid : Tame initialLinePid := by
  refine ⟨⟨rfl, rfl, rfl, rfl, rfl⟩, ?_, rfl⟩
  norm_num [initialLinePid, pidInit]

theorem ki_eq_zero {pid : PID ℝ} (h : Tame pid) : pid.ki = 0 := by
  rw [h.tuning.ki]
  norm_num [initialLinePid, pidInit]

/-- The output that the PID asks for. -/
theorem rawOutput_eq {pid : PID ℝ} (h : Tame pid) (bias : ℝ) :
    (pidUpdate pid 0.0 bias).2.lastRawOutput = -(0.18 * bias) - 0.02 * (bias + pid.prevErr) := by
  rw [lastRawOutput_pidUpdate (ki_eq_zero h), h.tuning.kp, h.tuning.kd]
  norm_num [initialLinePid, pidInit]
  ring

theorem abs_rawOutput_le {pid : PID ℝ} (h : Tame pid) {bias : ℝ} (hbias : |bias| ≤ 1) :
    |(pidUpdate pid 0.0 bias).2.lastRawOutput| ≤ 0.22 := by
  have hprev := h.prevErr
  rw [rawOutput_eq h]
  rw [abs_le] at hbias hprev ⊢
  norm_num at hbias hprev ⊢
  constructor <;> linarith

theorem lineTurnLimit_of_abs_le {x : ℝ} (hx : |x| ≤ 0.22) :
    ¬ x > appLineTurnLimit ∧ ¬ x < -appLineTurnLimit := by
  rw [abs_le] at hx
  norm_num [appLineTurnLimit] at hx ⊢
  constructor <;> linarith

/-- Inside its limits the PID puts out what it asks for. -/
theorem clampOutput_of_abs_le {pid : PID ℝ} (h : pid.SameTuning initialLinePid) {out : ℝ}
    (hout : |out| ≤ 0.22) : pid.clampOutput out = out := by
  obtain ⟨hmax, hmin⟩ := lineTurnLimit_of_abs_le hout
  have houtMax : pid.outMax = appLineTurnLimit := h.outMax
  have houtMin : pid.outMin = -appLineTurnLimit := h.outMin
  simp only [PID.clampOutput, houtMax, houtMin, hmax, hmin, if_false]

theorem clampf_of_abs_le {turn : ℝ} (hturn : |turn| ≤ 0.22) :
    clampf turn (-appLineTurnLimit) appLineTurnLimit = turn := by
  obtain ⟨hmax, hmin⟩ := lineTurnLimit_of_abs_le hturn
  simp only [clampf, hmax, hmin, if_false]

theorem abs_seekTurn_le (hold : ℝ) : |seekTurn hold| ≤ 0.22 := by
  rw [seekTurn, trackLostDiff]
  split_ifs <;> norm_num [abs_le]

/-- What the tracker returns on the line and off it. -/
theorem track_bounds {pid : PID ℝ} (h : Tame pid) {sensor : DevLineSensor ℝ}
    (hsensor : Normalised sensor) (b : Board) :
    |(controlLineTrackerUpdate pid sensor b).1| ≤ 0.22 ∧
      Tame (controlLineTrackerUpdate pid sensor b).2.1 ∧
      Normalised (controlLineTrackerUpdate pid sensor b).2.2 := by
  have hsensor' := hsensor.update b
  cases honline : (devLineSensorUpdate sensor b).frame.onLine with
  | false =>
      rw [controlLineTrackerUpdate_of_lost honline]
      exact ⟨abs_seekTurn_le _, h, hsensor'⟩
  | true =>
      rw [controlLineTrackerUpdate_of_onLine honline]
      have hbias : |(devLineSensorUpdate sensor b).frame.bias| ≤ 1 := abs_le.mpr hsensor'.bias
      have hraw := abs_rawOutput_le h hbias
      have htuning := (sameTuning_pidUpdate pid 0.0 (devLineSensorUpdate sensor b).frame.bias).trans
        h.tuning
      have hout : (pidUpdate pid 0.0 (devLineSensorUpdate sensor b).frame.bias).1 =
          (pidUpdate pid 0.0 (devLineSensorUpdate sensor b).frame.bias).2.lastRawOutput := by
        rw [fst_pidUpdate]
        exact clampOutput_of_abs_le h.tuning hraw
      refine ⟨hout ▸ hraw, ⟨htuning, ?_, hout⟩, hsensor'⟩
      rw [prevErr_pidUpdate]
      norm_num
      exact hbias

end Turn

/-! ### Runs -/

/-- The line sensor reads these values from now on, or its array of channels. -/
def withReadings (readings : Option (List ℕ)) (fw : Firmware ℝ) : Firmware ℝ :=
  { fw with
    lineSensor :=
      { fw.lineSensor with
        config := { fw.lineSensor.config with readRaw := readings.map fun raw _ _ => raw } } }

/-- A step of the system with the raw readings that the line sensor gets in it. -/
noncomputable def step (fw : Firmware ℝ) (e : Option (List ℕ) × Event ℝ) : Firmware ℝ :=
  App.step (withReadings e.1 fw) e.2

/-- The turn is at most 0.22, and in RUN each target speed is positive and that close to
its value on a straight line. -/
structure Bounded (fw : Firmware ℝ) : Prop where
  lineTurn : -0.22 ≤ fw.ctx.lineTurn ∧ fw.ctx.lineTurn ≤ 0.22
  left : fw.ctx.state = .run →
    |fw.ctx.chassis.targetSpeedLeft - leftBase| ≤ 0.22 ∧ 0 < fw.ctx.chassis.targetSpeedLeft
  right : fw.ctx.state = .run →
    |fw.ctx.chassis.targetSpeedRight - appBaseSpeedPulse| ≤ 0.22 ∧
      0 < fw.ctx.chassis.targetSpeedRight

/-- In a control iteration in RUN neither the limits of the PID nor those of the mission
change anything: what the PID asks for is inside them, and the turn is what the tracker
returns. -/
def LimitsIdle (fw : Firmware ℝ) (e : Option (List ℕ) × Event ℝ) : Prop :=
  ∀ nowMs, e.2 = .control nowMs → nextState (withReadings e.1 fw) = .run →
    (track nowMs (withReadings e.1 fw)).2.1.lastOutput =
        (track nowMs (withReadings e.1 fw)).2.1.lastRawOutput ∧
      (step fw e).ctx.lineTurn = (track nowMs (withReadings e.1 fw)).1 ∧
      |(step fw e).ctx.lineTurn| < appLineTurnLimit

/-- The invariant, on the application state and the steering. -/
structure Held (state : AppState) (s : Steering ℝ) : Prop where
  linePid : Tame s.linePid
  lineSensor : Normalised s.lineSensor
  lineTurn : |s.lineTurn| ≤ 0.22
  targets : state = .run →
    s.targetLeft = leftBase - s.lineTurn ∧ s.targetRight = appBaseSpeedPulse + s.lineTurn

def Inv (fw : Firmware ℝ) : Prop := Held fw.ctx.state (steering fw)

theorem Inv.bounded {fw : Firmware ℝ} (h : Inv fw) : Bounded fw := by
  have hturn := abs_le.mp h.lineTurn
  have htargets : fw.ctx.state = .run →
      fw.ctx.chassis.targetSpeedLeft = leftBase - (steering fw).lineTurn ∧
        fw.ctx.chassis.targetSpeedRight = appBaseSpeedPulse + (steering fw).lineTurn := h.targets
  refine ⟨hturn, fun hrun => ?_, fun hrun => ?_⟩
  · rw [(htargets hrun).1, abs_le]
    norm_num [leftBase, appBaseSpeedPulse, appLeftPulsesPerCm, appRightPulsesPerCm] at hturn ⊢
    refine ⟨⟨?_, ?_⟩, ?_⟩ <;> linarith
  · rw [(htargets hrun).2, abs_le]
    norm_num [appBaseSpeedPulse] at hturn ⊢
    refine ⟨⟨?_, ?_⟩, ?_⟩ <;> linarith

theorem abs_zero_le : |(0.0 : ℝ)| ≤ 0.22 := by norm_num

theorem inv_appInit (b : Board) : Inv (appInit b : Firmware ℝ) where
  linePid := tame_initialLinePid
  lineSensor := normalised_empty rfl
  lineTurn := abs_zero_le
  targets hrun := by cases hrun

theorem Inv.withReadings {fw : Firmware ℝ} (h : Inv fw) (readings : Option (List ℕ)) :
    Inv (withReadings readings fw) :=
  ⟨h.linePid, ⟨h.lineSensor.bias, h.lineSensor.lastBias⟩, h.lineTurn, h.targets⟩

section Control

variable {fw : Firmware ℝ} (h : Inv fw) (nowMs : UInt32)
include h

theorem lineTurn_controlTask_of_run (hrun : nextState fw = .run) :
    (controlTask nowMs fw).ctx.lineTurn = (track nowMs fw).1 := by
  have hsteering := steering_controlTask nowMs fw
  rw [if_pos hrun] at hsteering
  have hclamped : (controlTask nowMs fw).ctx.lineTurn =
      clampf (track nowMs fw).1 (-appLineTurnLimit) appLineTurnLimit :=
    congrArg Steering.lineTurn hsteering
  rw [hclamped]
  exact clampf_of_abs_le (track_bounds h.linePid h.lineSensor _).1

theorem inv_controlTask : Inv (controlTask nowMs fw) := by
  rw [Inv, state_controlTask, steering_controlTask]
  split_ifs with hrun
  · obtain ⟨hturn, hpid, hsensor⟩ := track_bounds h.linePid h.lineSensor
      (appStateTick nowMs (fw.setTick nowMs)).board
    have hclamped := (clampf_of_abs_le hturn).symm ▸ hturn
    exact ⟨hpid, hsensor, hclamped, fun _ => ⟨rfl, rfl⟩⟩
  · exact ⟨h.linePid, h.lineSensor, abs_zero_le, fun hstate => absurd hstate hrun⟩

end Control

theorem inv_appStep {fw : Firmware ℝ} (h : Inv fw) (e : Event ℝ) : Inv (App.step fw e) := by
  by_cases hcontrol : ∃ nowMs, e = .control nowMs
  · obtain ⟨nowMs, rfl⟩ := hcontrol
    exact inv_controlTask h nowMs
  · obtain ⟨hsteering, -, hstate⟩ := keeps_step fw (not_exists.mp hcontrol)
    rw [Inv, hsteering, hstate]
    exact h

theorem inv_step {fw : Firmware ℝ} (h : Inv fw) (e : Option (List ℕ) × Event ℝ) :
    Inv (step fw e) := inv_appStep (h.withReadings e.1) e.2

theorem limitsIdle {fw : Firmware ℝ} (h : Inv fw) (e : Option (List ℕ) × Event ℝ) :
    LimitsIdle fw e := by
  intro nowMs hnow hrun
  obtain ⟨readings, e⟩ := e
  subst hnow
  have hread := h.withReadings readings
  obtain ⟨hturn, hpid, -⟩ := track_bounds hread.linePid hread.lineSensor
    (appStateTick nowMs ((SteeringBound.withReadings readings fw).setTick nowMs)).board
  have hlineTurn := lineTurn_controlTask_of_run hread nowMs hrun
  refine ⟨hpid.unlimited, hlineTurn, ?_⟩
  have hlimit : (0.22 : ℝ) < appLineTurnLimit := by norm_num [appLineTurnLimit]
  exact (inv_controlTask hread nowMs).lineTurn.trans_lt hlimit

/-- In exact arithmetic, over every run of the system from `App_Init` and whatever the line
sensor reads: the turn stays within 0.22 and in RUN the target speeds stay positive and
within 0.22 of a straight line, and no limit of 40 ever binds. -/
theorem steering_bounded (b : Board) (run : List (Option (List ℕ) × Event ℝ)) :
    EachState step Bounded (appInit b) run ∧ EachStep step LimitsIdle (appInit b) run := by
  refine ⟨?_, EachStep.of_invariant (fun _ e h => inv_step h e) (fun _ e h => limitsIdle h e)
    (inv_appInit b)⟩
  rintro pre post -
  exact (exec_invariant (I := Inv) (fun _ e h => inv_step h e) (inv_appInit b) pre).bounded

end NuedcFirmware.App.SteeringBound
