import NuedcFirmware.Lib.CFloat

/-! The PID controller `pid.c`. -/

namespace NuedcFirmware.Common

open NuedcFirmware.Lib

structure PID (F : Type*) where
  kp : F
  ki : F
  kd : F
  integral : F
  prevErr : F
  lastSetpoint : F
  lastMeasure : F
  lastError : F
  lastP : F
  lastI : F
  lastD : F
  lastDeriv : F
  lastRawOutput : F
  lastOutput : F
  outMin : F
  outMax : F

variable {F : Type*} [CFloat F]

def pidInit (kp ki kd omin omax : F) : PID F where
  kp := kp
  ki := ki
  kd := kd
  integral := 0.0
  prevErr := 0.0
  lastSetpoint := 0.0
  lastMeasure := 0.0
  lastError := 0.0
  lastP := 0.0
  lastI := 0.0
  lastD := 0.0
  lastDeriv := 0.0
  lastRawOutput := 0.0
  lastOutput := 0.0
  outMin := omin
  outMax := omax

/-- The integral, limited so that its contribution stays within the output span. -/
def PID.limitIntegral (p : PID F) : F :=
  if fabsf p.ki > 1e-8 then
    let outSpan := fmaxf (fabsf p.outMin) (fabsf p.outMax)
    let iLimit := outSpan / fabsf p.ki
    let integral := if p.integral > iLimit then iLimit else p.integral
    if integral < -iLimit then -iLimit else integral
  else p.integral

def pidUpdate (p : PID F) (setpoint measure : F) : F × PID F :=
  let err := setpoint - measure
  let deriv := err - p.prevErr
  let p := { p with integral := p.integral + err }
  let p := { p with integral := p.limitIntegral }
  let p :=
    { p with
      lastSetpoint := setpoint
      lastMeasure := measure
      lastError := err
      lastP := p.kp * err
      lastI := p.ki * p.integral
      lastD := p.kd * deriv
      lastDeriv := deriv }
  let out := p.lastP + p.lastI + p.lastD
  let p := { p with lastRawOutput := out, prevErr := err }
  let out := if out > p.outMax then p.outMax else out
  let out := if out < p.outMin then p.outMin else out
  (out, { p with lastOutput := out })

def pidSetGains (p : PID F) (kp ki kd : F) : PID F := { p with kp, ki, kd }

def pidReset (p : PID F) : PID F := pidInit p.kp p.ki p.kd p.outMin p.outMax

/-! ### What an update does -/

/-- The output cut to the limits. -/
def PID.clampOutput (p : PID F) (out : F) : F :=
  let out := if out > p.outMax then p.outMax else out
  if out < p.outMin then p.outMin else out

/-- Two controllers agree in their gains and limits. -/
structure PID.SameTuning {F : Type*} (p q : PID F) : Prop where
  kp : p.kp = q.kp
  ki : p.ki = q.ki
  kd : p.kd = q.kd
  outMin : p.outMin = q.outMin
  outMax : p.outMax = q.outMax

theorem PID.SameTuning.trans {F : Type*} {p q r : PID F} (h : p.SameTuning q)
    (h' : q.SameTuning r) : p.SameTuning r :=
  ⟨h.kp.trans h'.kp, h.ki.trans h'.ki, h.kd.trans h'.kd, h.outMin.trans h'.outMin,
    h.outMax.trans h'.outMax⟩

theorem PID.SameTuning.symm {F : Type*} {p q : PID F} (h : p.SameTuning q) : q.SameTuning p :=
  ⟨h.kp.symm, h.ki.symm, h.kd.symm, h.outMin.symm, h.outMax.symm⟩

section Update

variable (p : PID F) (setpoint measure : F)

theorem fst_pidUpdate :
    (pidUpdate p setpoint measure).1 =
      p.clampOutput (pidUpdate p setpoint measure).2.lastRawOutput := rfl

@[simp] theorem prevErr_pidUpdate :
    (pidUpdate p setpoint measure).2.prevErr = setpoint - measure := rfl

theorem sameTuning_pidUpdate : (pidUpdate p setpoint measure).2.SameTuning p :=
  ⟨rfl, rfl, rfl, rfl, rfl⟩

end Update

/-- Without an integral part, the output before the limits. -/
theorem lastRawOutput_pidUpdate {p : PID ℝ} (hki : p.ki = 0) (setpoint measure : ℝ) :
    (pidUpdate p setpoint measure).2.lastRawOutput =
      p.kp * (setpoint - measure) + p.kd * (setpoint - measure - p.prevErr) := by
  have hintegral : ∀ i : ℝ, p.ki * i = 0 := fun i => by rw [hki, zero_mul]
  refine Eq.trans (congrArg (p.kp * (setpoint - measure) + · + _) (hintegral _)) ?_
  rw [add_zero]

/-- Without an integral part, controllers of one tuning that remember the same error, or
have no derivative part, put out the same. -/
theorem fst_pidUpdate_congr [CFloat.Zero F] {p q : PID F} (h : p.SameTuning q) (hki : q.ki = 0.0)
    (hprev : q.kd = 0.0 ∨ p.prevErr = q.prevErr) (setpoint measure : F) :
    (pidUpdate p setpoint measure).1 = (pidUpdate q setpoint measure).1 := by
  have hpart (i j : F) : p.ki * i = q.ki * j := by
    rw [h.ki, hki]
    exact CFloat.Zero.zero_mul_congr i j
  have hderiv : p.kd * (setpoint - measure - p.prevErr) =
      q.kd * (setpoint - measure - q.prevErr) := by
    rw [h.kd]
    rcases hprev with hkd | hprev
    · rw [hkd]
      exact CFloat.Zero.zero_mul_congr _ _
    · rw [hprev]
  have hraw : (pidUpdate p setpoint measure).2.lastRawOutput =
      (pidUpdate q setpoint measure).2.lastRawOutput := by
    show p.kp * (setpoint - measure) + p.ki * _ + p.kd * (setpoint - measure - p.prevErr) = _
    rw [h.kp, hpart, hderiv]
    rfl
  rw [fst_pidUpdate, fst_pidUpdate, hraw, PID.clampOutput, PID.clampOutput, h.outMin, h.outMax]

end NuedcFirmware.Common
