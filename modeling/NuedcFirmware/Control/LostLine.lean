import NuedcFirmware.Control.LineTracker
import NuedcFirmware.Modules.LinePosition
import Mathlib.Data.Sign.Basic

/-!
Which way the tracker turns when the line is lost.

On the line the PID is fed the bias as a measurement, and turns against it
(`sign_turn_of_onLine`). Off the line the tracker turns with the last bias
(`sign_turn_of_lost`). So for every bias but 0 the car turns one way while it sees the
line and the other way as soon as it does not.
-/

namespace NuedcFirmware.Control.LostLine

open NuedcFirmware.Lib NuedcFirmware.Platform NuedcFirmware.Common NuedcFirmware.Modules
open SignType

/-- A proportional controller whose limits leave room on both sides of 0. -/
structure Proportional (pid : PID ℝ) : Prop where
  kp : 0 < pid.kp
  ki : pid.ki = 0
  kd : pid.kd = 0
  outMin : pid.outMin < 0
  outMax : 0 < pid.outMax

theorem Proportional.of_sameTuning {p q : PID ℝ} (h : Proportional q) (hsame : p.SameTuning q) :
    Proportional p where
  kp := hsame.kp ▸ h.kp
  ki := hsame.ki ▸ h.ki
  kd := hsame.kd ▸ h.kd
  outMin := hsame.outMin ▸ h.outMin
  outMax := hsame.outMax ▸ h.outMax

/-! ### The two branches -/

section Branches

variable {pid : PID ℝ} {sensor : DevLineSensor ℝ} {b : Board}

/-- The limits do not change a sign. -/
theorem sign_clampOutput (hmin : pid.outMin < 0) (hmax : 0 < pid.outMax) (out : ℝ) :
    sign (pid.clampOutput out) = sign out := by
  rw [PID.clampOutput]
  split_ifs with hhigh hlow hlow
  · exact absurd hlow (not_lt.mpr (hmin.trans hmax).le)
  · rw [sign_pos hmax, sign_pos (hmax.trans hhigh)]
  · rw [sign_neg hmin, sign_neg (hlow.trans hmin)]
  · rfl

theorem sign_turn_of_onLine (hpid : Proportional pid)
    (h : (devLineSensorUpdate sensor b).frame.onLine = true) :
    sign (controlLineTrackerUpdate pid sensor b).1 =
      -sign (devLineSensorUpdate sensor b).frame.bias := by
  rw [controlLineTrackerUpdate_of_onLine h, fst_pidUpdate]
  have htuning := sameTuning_pidUpdate pid 0.0 (devLineSensorUpdate sensor b).frame.bias
  have hraw := lastRawOutput_pidUpdate hpid.ki 0.0 (devLineSensorUpdate sensor b).frame.bias
  rw [hpid.kd, zero_mul, add_zero] at hraw
  rw [sign_clampOutput hpid.outMin hpid.outMax, hraw, sign_mul, sign_pos hpid.kp, one_mul]
  norm_num [Left.sign_neg]

theorem sign_turn_of_lost (h : (devLineSensorUpdate sensor b).frame.onLine = false) :
    sign (controlLineTrackerUpdate pid sensor b).1 = sign sensor.frame.lastBias := by
  rw [controlLineTrackerUpdate_of_lost h, lastBias_of_lost h, seekTurn, trackLostDiff]
  norm_num
  split_ifs with hpos hneg
  · rw [sign_pos hpos, sign_pos (by norm_num)]
  · rw [sign_neg hneg, sign_neg (by norm_num)]
  · rw [le_antisymm (not_lt.mp hpos) (not_lt.mp hneg)]

end Branches

/-! ### Runs of the tracker -/

/-- The tracker, and the filtered bias of the last frame on the line. -/
structure Tracker where
  pid : PID ℝ
  sensor : DevLineSensor ℝ
  lastSeen : Option ℝ

/-- The turn that an update returns. -/
noncomputable def turn (t : Tracker) (b : Board) : ℝ :=
  (controlLineTrackerUpdate t.pid t.sensor b).1

noncomputable def step (t : Tracker) (b : Board) : Tracker :=
  let (_, pid, sensor) := controlLineTrackerUpdate t.pid t.sensor b
  { pid, sensor, lastSeen := if sensor.frame.onLine then some sensor.frame.bias else t.lastSeen }

noncomputable def start (pid : PID ℝ) (sensor : DevLineSensor ℝ) : Tracker where
  pid := pid
  sensor := controlLineTrackerInit sensor
  lastSeen := none

/-- An update that finds the line lost, last seen at `bias`. -/
def Loses (t : Tracker) (b : Board) (bias : ℝ) : Prop :=
  (devLineSensorUpdate t.sensor b).frame.onLine = false ∧ t.lastSeen = some bias

/-- An update of some sensor shows a frame on the line with the filtered bias `bias`. -/
def Shows (sensor : DevLineSensor ℝ) (b : Board) (bias : ℝ) : Prop :=
  (devLineSensorUpdate sensor b).frame.onLine = true ∧
    (devLineSensorUpdate sensor b).frame.bias = bias

/-- When the line is lost on one side, the turn has the sign that it has for a frame on
the line with that bias. -/
def KeepsDirection (t : Tracker) (b : Board) : Prop :=
  ∀ bias, Loses t b bias → bias ≠ 0 →
    ∀ (pid : PID ℝ) (sensor : DevLineSensor ℝ) (b' : Board), pid.SameTuning t.pid →
      Shows sensor b' bias →
      sign (turn t b) = sign (controlLineTrackerUpdate pid sensor b').1

/-- The invariant: the sensor remembers the bias it saw last. -/
structure Inv (t : Tracker) : Prop where
  proportional : Proportional t.pid
  lastBias : ∀ bias, t.lastSeen = some bias → t.sensor.frame.lastBias = bias
  shown : ∀ bias, t.lastSeen = some bias → ∃ sensor b, Shows sensor b bias

theorem inv_start {pid : PID ℝ} (hpid : Proportional pid) (sensor : DevLineSensor ℝ) :
    Inv (start pid sensor) where
  proportional := hpid
  lastBias _ h := by cases h
  shown _ h := by cases h

theorem inv_step {t : Tracker} (h : Inv t) (b : Board) : Inv (step t b) := by
  cases honline : (devLineSensorUpdate t.sensor b).frame.onLine with
  | true =>
      have hstep : step t b =
          { pid := (pidUpdate t.pid 0.0 (devLineSensorUpdate t.sensor b).frame.bias).2
            sensor := devLineSensorUpdate t.sensor b
            lastSeen := some (devLineSensorUpdate t.sensor b).frame.bias } := by
        rw [step, controlLineTrackerUpdate_of_onLine honline]
        simp only [honline, if_true]
      have hcount : DevLineSensor.getCount t.sensor.config ≠ 0 := by
        intro hzero
        rw [devLineSensorUpdate, if_pos hzero] at honline
        cases honline
      rw [hstep]
      refine ⟨h.proportional.of_sameTuning (sameTuning_pidUpdate ..), ?_, ?_⟩
      · rintro bias ⟨rfl⟩
        exact (bias_eq_lastBias t.sensor b hcount).symm
      · rintro bias ⟨rfl⟩
        exact ⟨t.sensor, b, honline, rfl⟩
  | false =>
      have hstep : step t b =
          { pid := t.pid, sensor := devLineSensorUpdate t.sensor b, lastSeen := t.lastSeen } := by
        rw [step, controlLineTrackerUpdate_of_lost honline]
        simp only [honline, Bool.false_eq_true, if_false]
      rw [hstep]
      refine ⟨h.proportional, fun bias hseen => ?_, h.shown⟩
      rw [lastBias_of_lost honline]
      exact h.lastBias bias hseen

/-- Where the line is lost, the turn is against the one on the line. -/
theorem sign_turn {t : Tracker} (h : Inv t) {b : Board} {bias : ℝ} (hloses : Loses t b bias)
    {pid : PID ℝ} {sensor : DevLineSensor ℝ} {b' : Board} (htuning : pid.SameTuning t.pid)
    (hshows : Shows sensor b' bias) :
    sign (turn t b) = sign bias ∧ sign (controlLineTrackerUpdate pid sensor b').1 = -sign bias := by
  obtain ⟨hlost, hseen⟩ := hloses
  refine ⟨?_, ?_⟩
  · rw [turn, sign_turn_of_lost hlost, h.lastBias bias hseen]
  · rw [sign_turn_of_onLine (h.proportional.of_sameTuning htuning) hshows.1, hshows.2]

theorem not_keepsDirection {t : Tracker} (h : Inv t) {b : Board} {bias : ℝ}
    (hloses : Loses t b bias) (hbias : bias ≠ 0) : ¬ KeepsDirection t b := by
  intro hkeeps
  obtain ⟨sensor, b', hshows⟩ := h.shown bias hloses.2
  have htuning : t.pid.SameTuning t.pid := ⟨rfl, rfl, rfl, rfl, rfl⟩
  have hsame := hkeeps bias hloses hbias t.pid sensor b' htuning hshows
  obtain ⟨hlost, honline⟩ := sign_turn h hloses htuning hshows
  rw [hlost, honline] at hsame
  have hzero : sign bias = 0 := by
    generalize sign bias = s at hsame
    revert hsame
    cases s <;> decide
  exact hbias (sign_eq_zero_iff.mp hzero)

/-- For every proportional controller and every sequence of frames: whenever the line is
lost on one side the direction is not kept, and the turn is the opposite of the one for
any frame on the line with the last bias. -/
theorem turns_away {pid : PID ℝ} (hpid : Proportional pid) (sensor : DevLineSensor ℝ)
    (boards : List Board) (b : Board) (bias : ℝ)
    (hloses : Loses (exec step (start pid sensor) boards) b bias) (hbias : bias ≠ 0) :
    ¬ KeepsDirection (exec step (start pid sensor) boards) b ∧
      ∀ (pid' : PID ℝ) (sensor' : DevLineSensor ℝ) (b' : Board),
        pid'.SameTuning (exec step (start pid sensor) boards).pid → Shows sensor' b' bias →
        sign (turn (exec step (start pid sensor) boards) b) =
          -sign (controlLineTrackerUpdate pid' sensor' b').1 := by
  have h : Inv (exec step (start pid sensor) boards) :=
    exec_invariant (I := Inv) (fun _ b h => inv_step h b) (inv_start hpid sensor) boards
  refine ⟨not_keepsDirection h hloses hbias, fun pid' sensor' b' htuning hshows => ?_⟩
  obtain ⟨hlost, honline⟩ := sign_turn h hloses htuning hshows
  rw [hlost, honline, neg_neg]

/-- The car's sensor with the proportional part of its controller. -/
noncomputable def carStart : Tracker := start (pidInit 0.18 0.0 0.0 (-40.0) 40.0) bspAdcInit

/-- A board with the line under channel `i` alone. -/
def boardUnder (i : ℕ) : Board := { Board.atReset with input := lineUnder i }

theorem proportional_carStart : Proportional (pidInit 0.18 0.0 0.0 (-40.0) 40.0) := by
  refine ⟨?_, ?_, ?_, ?_, ?_⟩ <;> norm_num [pidInit]

/-- The line was under the rightmost channel, and is lost. -/
theorem loses_right :
    Loses (exec step carStart [boardUnder 6]) (boardUnder bspAdcCcdCount) 1 := by
  have hconfig : carStart.sensor.config = sLineSensorConfig := rfl
  obtain ⟨honline, hbias, -⟩ := update_lineUnder hconfig (b := boardUnder 6) (i := 6) rfl (by decide)
  have hunprimed : carStart.sensor.biasPrimed = false := rfl
  rw [filterBias_of_unprimed hunprimed] at hbias
  have hstep : exec step carStart [boardUnder 6] =
      { pid := (pidUpdate carStart.pid 0.0
          (devLineSensorUpdate carStart.sensor (boardUnder 6)).frame.bias).2
        sensor := devLineSensorUpdate carStart.sensor (boardUnder 6)
        lastSeen := some (devLineSensorUpdate carStart.sensor (boardUnder 6)).frame.bias } := by
    rw [exec_cons, exec_nil, step, controlLineTrackerUpdate_of_onLine honline]
    simp only [honline, if_true]
  rw [hstep]
  refine ⟨?_, ?_⟩
  · exact lost_of_dark (i := bspAdcCcdCount) (config_devLineSensorUpdate _ _) rfl rfl
  · rw [hbias]
    norm_num

theorem car_turns_away :
    ¬ KeepsDirection (exec step carStart [boardUnder 6]) (boardUnder bspAdcCcdCount) ∧
      ∀ (pid' : PID ℝ) (sensor' : DevLineSensor ℝ) (b' : Board),
        pid'.SameTuning (exec step carStart [boardUnder 6]).pid → Shows sensor' b' 1 →
        sign (turn (exec step carStart [boardUnder 6]) (boardUnder bspAdcCcdCount)) =
          -sign (controlLineTrackerUpdate pid' sensor' b').1 :=
  turns_away proportional_carStart bspAdcInit [boardUnder 6] (boardUnder bspAdcCcdCount) 1 loses_right
    one_ne_zero

/-- The line under the rightmost channel, and then no line: the direction is not kept. -/
theorem direction_not_kept :
    ¬ KeepsDirection (exec step carStart [boardUnder 6]) (boardUnder bspAdcCcdCount) :=
  not_keepsDirection
    (exec_invariant (I := Inv) (fun _ b h => inv_step h b)
      (inv_start proportional_carStart bspAdcInit) [boardUnder 6])
    loses_right one_ne_zero

end NuedcFirmware.Control.LostLine
