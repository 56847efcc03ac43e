import NuedcFirmware.Common.Pid
import NuedcFirmware.Lib.Run
import NuedcFirmware.Lib.Saturation

/-!
The PID controller stays in its bounds, whatever it has been through.

A run is a sequence of calls. None of them changes the output limits, and an update cuts
both its output and its integral by the limits and the gains of the moment, so a history
cannot be felt beyond these cuts. With gains that stay, the integral is the saturating
accumulator of the errors (`integral_updates`), and its recovery is the accumulator's.
-/

namespace NuedcFirmware.Common

open NuedcFirmware.Lib

/-- What a program does with a controller. -/
inductive PidCall (F : Type*)
  | update (setpoint measure : F)
  | setGains (kp ki kd : F)
  | reset

def pidCall {F : Type*} [CFloat F] (p : PID F) : PidCall F → PID F
  | .update setpoint measure => (pidUpdate p setpoint measure).2
  | .setGains kp ki kd => pidSetGains p kp ki kd
  | .reset => pidReset p

/-- The largest output of either sign. -/
noncomputable def PID.span (p : PID ℝ) : ℝ := max |p.outMin| |p.outMax|

/-- How far the integral may go. -/
noncomputable def PID.integralLimit (p : PID ℝ) : ℝ := p.span / |p.ki|

section Update

variable {p : PID ℝ} (setpoint measure : ℝ)

theorem PID.span_nonneg (p : PID ℝ) : 0 ≤ p.span := le_max_of_le_left (abs_nonneg _)

theorem PID.integralLimit_nonneg (p : PID ℝ) : 0 ≤ p.integralLimit :=
  div_nonneg p.span_nonneg (abs_nonneg _)

theorem limitIntegral_eq (hki : |p.ki| > 1e-8) :
    p.limitIntegral = saturate p.integralLimit p.integral := by
  rw [saturate, max_comm, min_comm, max_def_lt, min_def_lt]
  exact if_pos hki

/-- The output is cut to the limits. -/
theorem fst_pidUpdate_mem (h : p.outMin ≤ p.outMax) :
    p.outMin ≤ (pidUpdate p setpoint measure).1 ∧ (pidUpdate p setpoint measure).1 ≤ p.outMax := by
  rw [fst_pidUpdate, PID.clampOutput]
  split_ifs with hhigh hlow hlow
  · exact ⟨le_rfl, h⟩
  · exact ⟨h, le_rfl⟩
  · exact ⟨le_rfl, h⟩
  · exact ⟨not_lt.mp hlow, not_lt.mp hhigh⟩

theorem integral_pidUpdate (hki : |p.ki| > 1e-8) :
    (pidUpdate p setpoint measure).2.integral =
      saturate p.integralLimit (p.integral + (setpoint - measure)) :=
  limitIntegral_eq (p := { p with integral := p.integral + (setpoint - measure) }) hki

theorem lastI_pidUpdate :
    (pidUpdate p setpoint measure).2.lastI = p.ki * (pidUpdate p setpoint measure).2.integral :=
  rfl

/-- So is the integral, by the gain it is multiplied with. -/
theorem abs_lastI_pidUpdate_le (hki : |p.ki| > 1e-8) :
    |(pidUpdate p setpoint measure).2.lastI| ≤ p.span := by
  have hpos : 0 < |p.ki| := lt_trans (by norm_num) hki
  have hcut := abs_saturate_le p.integralLimit_nonneg (p.integral + (setpoint - measure))
  rw [lastI_pidUpdate, integral_pidUpdate _ _ hki, abs_mul]
  calc |p.ki| * |saturate p.integralLimit (p.integral + (setpoint - measure))|
      ≤ |p.ki| * p.integralLimit := mul_le_mul_of_nonneg_left hcut hpos.le
    _ = p.span := mul_div_cancel₀ _ hpos.ne'

end Update

/-! ### Runs -/

/-- How many errors of size `e` are enough to take back an integral that has saturated. -/
noncomputable def recoveryTime (span ki e : ℝ) : ℕ := ⌈span / (ki * e)⌉₊

/-- The calls are updates, all with the same error. -/
def ConstantError (error : ℝ) (calls : List (PidCall ℝ)) : Prop :=
  ∀ call ∈ calls, ∃ setpoint measure, call = .update setpoint measure ∧
    setpoint - measure = error

/-- From here on, a constant error brings the integral to zero or beyond, from either side,
within the recovery time; with more updates it stays there. -/
def Recovers (span : ℝ) (p : PID ℝ) : Prop :=
  ∀ e > 0, ∀ calls : List (PidCall ℝ), recoveryTime span p.ki e ≤ calls.length →
    (ConstantError (-e) calls → (exec pidCall p calls).lastI ≤ 0) ∧
    (ConstantError e calls → 0 ≤ (exec pidCall p calls).lastI)

/-- What is said of one call: of an update, that its output is in the limits, that the part
of the integral in it is too, and that it can be taken back. -/
def StaysBounded (outMin outMax : ℝ) (p : PID ℝ) : PidCall ℝ → Prop
  | .update setpoint measure =>
      (outMin ≤ (pidUpdate p setpoint measure).1 ∧
        (pidUpdate p setpoint measure).1 ≤ outMax) ∧
      (|p.ki| > 1e-8 →
        |(pidUpdate p setpoint measure).2.lastI| ≤ max |outMin| |outMax|) ∧
      (p.ki > 1e-8 →
        Recovers (max |outMin| |outMax|) (pidUpdate p setpoint measure).2)
  | .setGains .. => True
  | .reset => True

section Recovery

variable {p : PID ℝ} {error : ℝ} {calls : List (PidCall ℝ)}

/-- With gains that stay, the integral adds up the errors, cut after each. -/
theorem integral_updates (hki : |p.ki| > 1e-8) (hcalls : ConstantError error calls) :
    (exec pidCall p calls).integral =
      accumulate p.integralLimit (List.replicate calls.length error) p.integral := by
  induction calls generalizing p with
  | nil => rfl
  | cons call calls ih =>
      obtain ⟨⟨setpoint, measure, rfl, rfl⟩, hrest⟩ := List.forall_mem_cons.mp hcalls
      rw [List.length_cons, List.replicate_succ, accumulate_cons,
        ← integral_pidUpdate setpoint measure hki]
      exact ih (p := (pidUpdate p setpoint measure).2) hki hrest

/-- The part of the integral in the output is that of the last update. -/
theorem lastI_updates (h : p.lastI = p.ki * p.integral) (hcalls : ConstantError error calls) :
    (exec pidCall p calls).lastI = p.ki * (exec pidCall p calls).integral := by
  induction calls generalizing p with
  | nil => exact h
  | cons call calls ih =>
      obtain ⟨⟨setpoint, measure, rfl, -⟩, hrest⟩ := List.forall_mem_cons.mp hcalls
      exact ih (p := (pidUpdate p setpoint measure).2) rfl hrest

theorem recoveryTime_le_iff {span ki e : ℝ} (he : 0 < e) {n : ℕ} :
    recoveryTime span ki e ≤ n ↔ span / ki ≤ n * e := by
  rw [recoveryTime, Nat.ceil_le, ← div_div, div_le_iff₀ he]

/-- An update leaves an integral that can be taken back. -/
theorem recovers_pidUpdate (hki : p.ki > 1e-8) (setpoint measure : ℝ) :
    Recovers p.span (pidUpdate p setpoint measure).2 := by
  have hpos : 0 < p.ki := lt_trans (by norm_num) hki
  have habs : |p.ki| > 1e-8 := by rwa [abs_of_pos hpos]
  have hbound : |(pidUpdate p setpoint measure).2.integral| ≤ p.integralLimit := by
    rw [integral_pidUpdate _ _ habs]
    exact abs_saturate_le p.integralLimit_nonneg _
  obtain ⟨hlow, hhigh⟩ := abs_le.mp hbound
  intro e he calls hlength
  have hlong : p.integralLimit ≤ calls.length * e := by
    rw [PID.integralLimit, abs_of_pos hpos]
    exact (recoveryTime_le_iff he).mp hlength
  have hlengths : ∀ error : ℝ, ((List.replicate calls.length error).length : ℝ) * e =
      calls.length * e := fun error => by rw [List.length_replicate]
  refine ⟨fun hcalls => ?_, fun hcalls => ?_⟩
  · rw [lastI_updates (p := (pidUpdate p setpoint measure).2) rfl hcalls,
      integral_updates (p := (pidUpdate p setpoint measure).2) habs hcalls]
    refine mul_nonpos_of_nonneg_of_nonpos hpos.le ?_
    exact accumulate_nonpos p.integralLimit_nonneg hhigh he.le
      (fun _ h => List.eq_of_mem_replicate h) (by rwa [hlengths])
  · rw [lastI_updates (p := (pidUpdate p setpoint measure).2) rfl hcalls,
      integral_updates (p := (pidUpdate p setpoint measure).2) habs hcalls]
    refine mul_nonneg hpos.le ?_
    exact accumulate_nonneg p.integralLimit_nonneg hlow he.le
      (fun _ h => List.eq_of_mem_replicate h) (by rwa [hlengths])

end Recovery

/-- No call changes the output limits. -/
theorem limits_pidCall (p : PID ℝ) (call : PidCall ℝ) :
    (pidCall p call).outMin = p.outMin ∧ (pidCall p call).outMax = p.outMax := by
  cases call with
  | update => exact ⟨rfl, rfl⟩
  | setGains => exact ⟨rfl, rfl⟩
  | reset => exact ⟨rfl, rfl⟩

theorem staysBounded_of_limits {p : PID ℝ} {outMin outMax : ℝ} (h : outMin ≤ outMax)
    (hp : p.outMin = outMin ∧ p.outMax = outMax) (call : PidCall ℝ) :
    StaysBounded outMin outMax p call := by
  obtain ⟨rfl, rfl⟩ := hp
  cases call with
  | update setpoint measure =>
      exact ⟨fst_pidUpdate_mem setpoint measure h, abs_lastI_pidUpdate_le setpoint measure,
        fun hki => recovers_pidUpdate hki setpoint measure⟩
  | setGains => trivial
  | reset => trivial

/-- Whatever calls a controller has been through, its next update stays in the bounds. -/
theorem pid_staysBounded {outMin outMax : ℝ} (h : outMin ≤ outMax) (kp ki kd : ℝ)
    (calls : List (PidCall ℝ)) :
    EachStep pidCall (StaysBounded outMin outMax) (pidInit kp ki kd outMin outMax) calls :=
  EachStep.of_invariant (I := fun p => p.outMin = outMin ∧ p.outMax = outMax)
    (fun p call hp => ⟨(limits_pidCall p call).1.trans hp.1, (limits_pidCall p call).2.trans hp.2⟩)
    (fun _ call hp => staysBounded_of_limits h hp call) ⟨rfl, rfl⟩

/-- The gain of the integral is raised after it has saturated. -/
theorem pid_staysBounded_raisedGain :
    EachStep pidCall (StaysBounded (-0.22) 0.22) (pidInit 1 2 0 (-0.22) 0.22)
      [.update 1 0, .update 1 0, .setGains 1 5 0, .update 0 1] :=
  pid_staysBounded (by norm_num) 1 2 0 _

end NuedcFirmware.Common
