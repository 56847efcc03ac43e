import NuedcFirmware.Lib.Run
import NuedcFirmware.Tests.StraightProfile
import NuedcFirmware.Tests.TurnSafety

/-!
Safety of the straight-line controller.

What interrupts the control task stops a wheel or leaves it (`duty_interrupt`). So whatever
comes between the motor calls of an iteration, a wheel ends with the duty that was last
commanded for it or with none (`duty_makeCalls`), and the state machine decides when one is
commanded at all (`decision_cases`).
-/

namespace NuedcFirmware.Tests.Straight

open NuedcFirmware.Lib NuedcFirmware.Platform NuedcFirmware.Modules NuedcFirmware.System
open NuedcFirmware.Tests.TurnSafety (wheelOf coherent_perform coherent_raiseIf duty_raiseIf)

/-! ### Interruptions -/

section Interrupt

variable {s : Shared} (h : s.motor.Coherent)
include h

/-- A fault that is raised, by whichever task. -/
theorem systemFaultRaise_cases (code : SystemFaultCode) (detail : UInt32) :
    (systemFaultRaise code detail s.supervisor.fault s.motor).2.Coherent ∧
      ∀ w, (systemFaultRaise code detail s.supervisor.fault s.motor).2.duty w = 0 :=
  ⟨coherent_raiseIf (s := (s.supervisor.fault, s.motor)) h (some (code, detail)),
    duty_raiseIf (s := (s.supervisor.fault, s.motor)) h (some (code, detail))⟩

/-- An interruption stops a wheel or leaves it. -/
theorem interrupt_cases (e : Interruption) :
    (s.interrupt e).motor.Coherent ∧
      ∀ w, (s.interrupt e).motor.duty w = 0 ∨ (s.interrupt e).motor.duty w = s.motor.duty w := by
  cases e with
  | pinChange p => exact ⟨⟨h.config, h.silent⟩, fun w => Or.inr rfl⟩
  | encoderIrq => exact ⟨⟨h.config, h.silent⟩, fun w => Or.inr rfl⟩
  | fast now =>
      have hticked : (s.setTick now).motor.Coherent := ⟨h.config, h.silent⟩
      refine ⟨coherent_bspMotorSafetyTick hticked now, fun w => ?_⟩
      rcases bspMotorSafetyTick_cases hticked now with ⟨hzero, -⟩ | ⟨hsame, -⟩
      · exact Or.inl (hzero w)
      · have hkept : (bspMotorSafetyTick now (s.setTick now).motor).duty w =
            (s.setTick now).motor.duty w := by rw [hsame]
        exact Or.inr hkept
  | health now =>
      have hmotor : (s.interrupt (.health now)).motor = (healthTask now s.supervisor s.motor).2 := rfl
      rw [hmotor]
      rcases healthTask_cases now s.supervisor s.motor with
        ⟨-, -, hfed⟩ | ⟨-, detail, hraised⟩ | ⟨-, -, hnothing⟩
      · rw [hfed]
        exact ⟨h, fun w => Or.inr rfl⟩
      · obtain ⟨hcoherent, hzero⟩ := systemFaultRaise_cases h .taskStale detail
        rw [hraised]
        exact ⟨hcoherent, fun w => Or.inl (hzero w)⟩
      · rw [hnothing]
        exact ⟨h, fun w => Or.inr rfl⟩
  | beat task now => exact ⟨h, fun w => Or.inr rfl⟩
  | faultRaise code detail =>
      obtain ⟨hcoherent, hzero⟩ := systemFaultRaise_cases h code detail
      exact ⟨hcoherent, fun w => Or.inl (hzero w)⟩

end Interrupt

theorem interrupts_cases {s : Shared} (h : s.motor.Coherent) (es : List Interruption) :
    (es.foldl Shared.interrupt s).motor.Coherent ∧
      ∀ w, (es.foldl Shared.interrupt s).motor.duty w = 0 ∨
        (es.foldl Shared.interrupt s).motor.duty w = s.motor.duty w := by
  induction es generalizing s with
  | nil => exact ⟨h, fun w => Or.inr rfl⟩
  | cons e es ih =>
      obtain ⟨hnext, hduty⟩ := interrupt_cases h e
      obtain ⟨hlast, hduties⟩ := ih hnext
      refine ⟨hlast, fun w => ?_⟩
      rcases hduties w with hzero | hsame
      · exact Or.inl hzero
      · rw [List.foldl_cons, hsame]
        exact hduty w

/-! ### Motor calls -/

/-- The duty that a call commands. -/
def value : MotorCall → ℤ
  | .setSignedDuty _ duty => duty
  | .brake _ => 0

theorem duty_perform {m : BspMotor} (h : m.Coherent) {call : MotorCall} (hvalue : |value call| ≤ 1000)
    (w : Wheel) : (call.perform m).duty w = if w = wheelOf call then value call else m.duty w := by
  cases call with
  | setSignedDuty ch duty =>
      have hrange := abs_le.mp hvalue
      have hclamp : max (-1000) (min duty 1000) = duty := by
        rw [value] at hrange
        omega
      rw [MotorCall.perform, duty_bspMotorSetSignedDuty h, hclamp]
      rfl
  | brake ch => exact duty_bspMotorBrake ch w

/-- Whatever comes between the calls, a wheel for which each call commands the same ends with
that duty or with none. -/
theorem makeCalls_cases {s : Shared} (h : s.motor.Coherent) (between : ℕ → List Interruption)
    {calls : List MotorCall} {duty : Wheel → ℤ} (hrange : ∀ w, |duty w| ≤ 1000)
    (hcalls : ∀ c ∈ calls, value c = duty (wheelOf c)) :
    (Shared.makeCalls between calls s).motor.Coherent ∧
      ∀ w, s.motor.duty w = 0 ∨ s.motor.duty w = duty w ∨ (∃ c ∈ calls, wheelOf c = w) →
        (Shared.makeCalls between calls s).motor.duty w = 0 ∨
          (Shared.makeCalls between calls s).motor.duty w = duty w := by
  induction calls generalizing s between with
  | nil =>
      obtain ⟨hlast, hduty⟩ := interrupts_cases h (between 0)
      refine ⟨hlast, fun w hw => ?_⟩
      rcases hduty w with hzero | hsame
      · exact Or.inl hzero
      · rw [Shared.makeCalls, hsame]
        rcases hw with hzero | hcommanded | ⟨c, hc, -⟩
        · exact Or.inl hzero
        · exact Or.inr hcommanded
        · cases hc
  | cons call calls ih =>
      obtain ⟨hbefore, hduty⟩ := interrupts_cases h (between 0)
      have hvalue : value call = duty (wheelOf call) := hcalls call List.mem_cons_self
      have hperform := duty_perform hbefore (show |value call| ≤ 1000 from hvalue ▸ hrange _)
      have hnext : (call.perform ((between 0).foldl Shared.interrupt s).motor).Coherent :=
        coherent_perform (s := (s.supervisor.fault, _)) hbefore call
      obtain ⟨hlast, hduties⟩ :=
        ih (s := { (between 0).foldl Shared.interrupt s with
            motor := call.perform ((between 0).foldl Shared.interrupt s).motor })
          hnext (fun k => between (k + 1)) fun c hc => hcalls c (List.mem_cons_of_mem _ hc)
      refine ⟨hlast, fun w hw => hduties w ?_⟩
      by_cases hcall : w = wheelOf call
      · exact Or.inr (Or.inl ((hperform w).trans ((if_pos hcall).trans (hcall ▸ hvalue))))
      · have hkept := (hperform w).trans (if_neg hcall)
        rcases hw with hzero | hcommanded | ⟨c, hc, hwheel⟩
        · exact Or.inl (hkept.trans ((hduty w).elim id fun hsame => hsame.trans hzero))
        · rcases hduty w with hzero | hsame
          · exact Or.inl (hkept.trans hzero)
          · exact Or.inr (Or.inl (hkept.trans (hsame.trans hcommanded)))
        · rcases List.mem_cons.mp hc with rfl | hc
          · exact absurd hwheel.symm hcall
          · exact Or.inr (Or.inr ⟨c, hc, hwheel⟩)

/-! ### The state machine -/

section Machine

variable {F : Type*} {r : Reading F} {task : StraightTask F}

theorem state_watchLine : (watchLine r task).state = task.state := by
  rw [watchLine]
  split_ifs <;> rfl

theorem state_updateState :
    (updateState r task).state = (pressButton r (checkFault r task)).state := by
  rw [updateState]
  split_ifs
  · exact state_watchLine
  · rfl

theorem state_checkFault :
    (checkFault r task).state = if r.faultActive = true then .fault else task.state := by
  rw [checkFault]
  split_ifs <;> rfl

/-- The state after the button. -/
theorem state_pressButton :
    (pressButton r task).state =
      if startsRun r task then .running else if endsRun r task then .done else task.state := by
  rw [pressButton]
  split_ifs <;> rfl

theorem not_pressed_of_fault (h : task.state = .fault) :
    startsRun r task = false ∧ endsRun r task = false := by
  simp [startsRun, endsRun, h]

/-- Nothing leads out of the fault state, and a fault that is found leads into it. -/
theorem fault_updateState (h : r.faultActive = true ∨ task.state = .fault) :
    (updateState r task).state = .fault := by
  have hfault : (checkFault r task).state = .fault := by
    rw [state_checkFault]
    rcases h with hactive | hstate
    · rw [if_pos hactive]
    · rw [hstate, ite_self]
  obtain ⟨hstart, hend⟩ := not_pressed_of_fault (r := r) hfault
  rw [state_updateState, state_pressButton, hstart, hend]
  exact hfault

theorem done_updateState (h : endsRun r (checkFault r task) = true) :
    (updateState r task).state = .done := by
  have hrunning : (checkFault r task).state = .running := by
    simp only [endsRun, Bool.and_eq_true, decide_eq_true_eq] at h
    exact h.2
  have hstart : startsRun r (checkFault r task) = false := by
    simp [startsRun, hrunning]
  rw [state_updateState, state_pressButton, hstart, h]
  rfl

end Machine

/-! ### What an iteration decides -/

/-- Each wheel gets the duty, and by every call about it. -/
def Commands (calls : List MotorCall) (duty : Wheel → ℤ) : Prop :=
  (∀ c ∈ calls, value c = duty (wheelOf c)) ∧ ∀ w, ∃ c ∈ calls, wheelOf c = w

/-- Calls that stop, both wheels among them. -/
def AllStop (calls : List MotorCall) : Prop := Commands calls fun _ => 0

theorem value_stop : (∀ c ∈ stopMotors, value c = 0) ∧ ∀ c ∈ brakeMotors, value c = 0 := by
  simp [stopMotors, brakeMotors, value]

theorem value_wheelCall (ch : ℕ) (pwm : ℤ) : value (wheelCall ch pwm) = pwm := by
  rw [wheelCall]
  split_ifs with hzero
  · exact hzero.symm
  · rfl

theorem wheelOf_wheelCall (ch : ℕ) (pwm : ℤ) : wheelOf (wheelCall ch pwm) = motorIndex ch := by
  rw [wheelCall]
  split_ifs <;> rfl

/-- The two commands of an iteration that drives. -/
theorem commands_wheelCalls (duty : Wheel → ℤ) :
    Commands [wheelCall 0 (duty .left), wheelCall 1 (duty .right)] duty := by
  refine ⟨fun c hc => ?_, fun w => ?_⟩
  · rcases List.mem_cons.mp hc with rfl | hc
    · rw [value_wheelCall, wheelOf_wheelCall]
      rfl
    · rw [List.mem_singleton.mp hc, value_wheelCall, wheelOf_wheelCall]
      rfl
  · cases w with
    | left => exact ⟨_, List.mem_cons_self, wheelOf_wheelCall 0 _⟩
    | right => exact ⟨_, List.mem_cons_of_mem _ (List.mem_singleton_self _), wheelOf_wheelCall 1 _⟩

theorem covers_stop (w : Wheel) :
    (∃ c ∈ stopMotors, wheelOf c = w) ∧ ∃ c ∈ brakeMotors, wheelOf c = w := by
  cases w with
  | left => exact ⟨⟨.setSignedDuty 0 0, by simp [stopMotors], rfl⟩, .brake 0, by simp [brakeMotors], rfl⟩
  | right => exact ⟨⟨.setSignedDuty 1 0, by simp [stopMotors], rfl⟩, .brake 1, by simp [brakeMotors], rfl⟩

/-- Calls that stop, before and after. -/
theorem AllStop.append {before calls after : List MotorCall} (h : AllStop calls)
    (hbefore : ∀ c ∈ before, value c = 0) (hafter : ∀ c ∈ after, value c = 0) :
    AllStop (before ++ (calls ++ after)) := by
  refine ⟨fun c hc => ?_, fun w => ?_⟩
  · simp only [List.mem_append] at hc
    exact hc.elim (hbefore c) fun hc => hc.elim (h.1 c) (hafter c)
  · obtain ⟨c, hc, hwheel⟩ := h.2 w
    exact ⟨c, by simp [hc], hwheel⟩

theorem allStop_stopMotors : AllStop stopMotors :=
  ⟨value_stop.1, fun w => (covers_stop w).1⟩

theorem allStop_brakeMotors : AllStop brakeMotors :=
  ⟨value_stop.2, fun w => (covers_stop w).2⟩

section Decision

variable {F : Type*} [CFloat F] (r : Reading F) (leftTotal rightTotal : ℤ) (task : StraightTask F)

/-- What the motor part of an iteration can end in. -/
inductive Ending (d : Decision F) : Prop
  | drives : d.task.state = .running → r.now - d.task.runStartedMs = d.elapsedMs →
      d.elapsedMs ≤ runTimeoutMs →
      (d.leftPwm, d.rightPwm) =
        wheelDuties F (pulseCount leftTotal) (pulseCount rightTotal) d.elapsedMs →
      d.calls = [wheelCall 0 d.leftPwm, wheelCall 1 d.rightPwm] → Ending d
  | stops : d.task.state ≠ .running → AllStop d.calls → d.leftPwm = 0 → d.rightPwm = 0 → Ending d

omit [CFloat F] in
@[simp] theorem task_stopOnFault (d : Decision F) : (stopOnFault d).task = d.task := by
  rw [stopOnFault]
  split_ifs <;> rfl

/-- A decision by which both wheels stop, with the stop that a fault adds. -/
theorem ending_stopOnFault {d : Decision F} (hstate : d.task.state ≠ .running)
    (hcalls : d.task.state = .fault ∨ AllStop d.calls) (hzero : ∀ c ∈ d.calls, value c = 0)
    (hleft : d.leftPwm = 0) (hright : d.rightPwm = 0) :
    Ending r leftTotal rightTotal (stopOnFault d) := by
  rw [stopOnFault]
  by_cases hfault : d.task.state = .fault
  · rw [if_pos hfault]
    refine .stops hstate ?_ hleft hright
    have hstop : AllStop (d.calls ++ (stopMotors ++ [])) :=
      allStop_stopMotors.append hzero (by simp)
    rwa [List.append_nil] at hstop
  · rw [if_neg hfault]
    exact .stops hstate (hcalls.resolve_left hfault) hleft hright

theorem ending_run (hstate : task.state = .running) :
    Ending r leftTotal rightTotal (stopOnFault (run r leftTotal rightTotal task)) := by
  rw [run]
  dsimp only
  by_cases hlate : r.now - task.runStartedMs > runTimeoutMs
  · rw [if_pos hlate]
    exact ending_stopOnFault r leftTotal rightTotal (by simp) (Or.inl rfl) (by simp) rfl rfl
  rw [if_neg hlate]
  by_cases hreached : pulseCount leftTotal ≥ leftTargetPulses F ∧
      pulseCount rightTotal ≥ rightTargetPulses F
  · rw [if_pos hreached]
    exact ending_stopOnFault r leftTotal rightTotal (by simp) (Or.inr allStop_brakeMotors)
      value_stop.2 rfl rfl
  · have hrunning : ¬ task.state = .fault := by simp [hstate]
    rw [if_neg hreached, stopOnFault, if_neg hrunning]
    exact .drives hstate rfl (UInt32.not_lt.mp hlate) rfl rfl

theorem ending_hold (hstate : task.state ≠ .running) :
    Ending r leftTotal rightTotal (stopOnFault (hold r task)) := by
  have hcalls : (hold r task).calls = brakeMotors ∨ (hold r task).calls = stopMotors := by
    rw [hold]
    dsimp only
    split_ifs
    · exact Or.inl rfl
    · exact Or.inr rfl
  rcases hcalls with hbrake | hstop
  · exact ending_stopOnFault r leftTotal rightTotal hstate (Or.inr (hbrake ▸ allStop_brakeMotors))
      (hbrake ▸ value_stop.2) rfl rfl
  · exact ending_stopOnFault r leftTotal rightTotal hstate (Or.inr (hstop ▸ allStop_stopMotors))
      (hstop ▸ value_stop.1) rfl rfl

theorem ending_stand (hstate : task.state ≠ .running) :
    Ending r leftTotal rightTotal (stopOnFault (stand task)) :=
  ending_stopOnFault r leftTotal rightTotal hstate (Or.inr allStop_stopMotors) value_stop.1 rfl rfl

theorem ending_drive : Ending r leftTotal rightTotal (drive r leftTotal rightTotal task) := by
  rw [drive]
  cases hstate : task.state with
  | running => exact ending_run r leftTotal rightTotal task hstate
  | done => exact ending_hold r leftTotal rightTotal task (by simp [hstate])
  | waitImu => exact ending_stand r leftTotal rightTotal task (by simp [hstate])
  | ready => exact ending_stand r leftTotal rightTotal task (by simp [hstate])
  | fault => exact ending_stand r leftTotal rightTotal task (by simp [hstate])

variable {r leftTotal rightTotal task}

/-- The motor part leaves the states other than running as they are. -/
theorem task_drive (h : task.state ≠ .running) :
    (drive r leftTotal rightTotal task).task = task := by
  rw [drive, task_stopOnFault]
  cases hstate : task.state with
  | running => exact absurd hstate h
  | waitImu => rfl
  | ready => rfl
  | done => rfl
  | fault => rfl

end Decision

/-! ### An iteration -/

section Iteration

variable {F : Type*}

/-- The duties that an iteration publishes. -/
def StraightSnapshot.pwm (snapshot : StraightSnapshot F) : Wheel → ℤ
  | .left => snapshot.leftPwm
  | .right => snapshot.rightPwm

def Decision.pwm (d : Decision F) : Wheel → ℤ
  | .left => d.leftPwm
  | .right => d.rightPwm

variable [CFloat F]

/-- The totals that an iteration reads. -/
def totalRead (i : StraightInput F) (s : StraightSystem F) : Wheel → ℤ
  | .left => bspEncoderGetTotal 0 (atLeftTotal i s).encoder
  | .right => bspEncoderGetTotal 1 (atRightTotal i s).encoder

variable (F) in
def targetPulsesOf : Wheel → UInt32
  | .left => leftTargetPulses F
  | .right => rightTargetPulses F

/-- The motor part of an iteration. -/
def motorPart (i : StraightInput F) (s : StraightSystem F) : Decision F :=
  drive (reading i s) (totalRead i s .left) (totalRead i s .right)
    (updateState (reading i s) (buttonRead s))

theorem decision_eq (i : StraightInput F) (s : StraightSystem F) :
    decision i s =
      { motorPart i s with
        calls := buttonCalls (reading i s) (buttonRead s) ++ (motorPart i s).calls } := rfl

variable (i : StraightInput F) (s : StraightSystem F)

theorem task_controlTask : (controlTask i s).task = (motorPart i s).task := by
  rw [controlTask, decision_eq]

/-- What is published is what has been decided. -/
theorem pwm_controlTask : (controlTask i s).snapshot.pwm = (motorPart i s).pwm := by
  rw [controlTask, decision_eq]
  funext w
  cases w <;> rfl

/-- An iteration that finds a fault, or is in the fault state, ends in it. -/
theorem fault_controlTask (h : systemFaultIsActive s.shared.supervisor.fault = true ∨
    s.task.state = .fault) : (controlTask i s).task.state = .fault := by
  have hupdate : (updateState (reading i s) (buttonRead s)).state = .fault := fault_updateState h
  have hne : (updateState (reading i s) (buttonRead s)).state ≠ .running := by
    rw [hupdate]
    decide
  rw [task_controlTask, motorPart, task_drive hne, hupdate]

variable [CFloat.Whole F]

/-- An iteration that drives finds no fault, is in time, and has a duty for each wheel that is
short of its target. Every other iteration stops both wheels. -/
inductive Outcome : Prop
  | drives : (motorPart i s).task.state = .running →
      systemFaultIsActive s.shared.supervisor.fault = false →
      i.now - (motorPart i s).task.runStartedMs ≤ runTimeoutMs →
      (∀ w, targetPulsesOf F w ≤ pulseCount (totalRead i s w) ∧ (motorPart i s).pwm w = 0 ∨
        pulseCount (totalRead i s w) < targetPulsesOf F w ∧
          205 ≤ (motorPart i s).pwm w ∧ (motorPart i s).pwm w ≤ 315) →
      Outcome
  | stops : (motorPart i s).task.state ≠ .running → (motorPart i s).pwm = (fun _ => 0) → Outcome

/-- How an iteration ends, and that its calls command the duties it publishes. -/
theorem outcome : Outcome i s ∧ Commands (decision i s).calls (motorPart i s).pwm := by
  have hending : Ending (reading i s) (totalRead i s .left) (totalRead i s .right) (motorPart i s) :=
    ending_drive ..
  have hbutton : ∀ c ∈ buttonCalls (reading i s) (buttonRead s), value c = 0 := by
    rw [buttonCalls]
    split_ifs
    · exact value_stop.2
    · simp
  rw [decision_eq]
  cases hending with
  | drives hstate hfrom hintime hpwm hcalls =>
      have hrunning : (updateState (reading i s) (buttonRead s)).state = .running := by
        by_contra hne
        rw [motorPart, task_drive hne] at hstate
        exact hne hstate
      have hnoFault : systemFaultIsActive s.shared.supervisor.fault = false := by
        rw [Bool.eq_false_iff]
        intro hactive
        have hfault : (updateState (reading i s) (buttonRead s)).state = .fault :=
          fault_updateState (Or.inl hactive)
        rw [hrunning] at hfault
        cases hfault
      have hnone : buttonCalls (reading i s) (buttonRead s) = [] := by
        refine if_neg fun hend => ?_
        rw [done_updateState hend] at hrunning
        cases hrunning
      obtain ⟨hl, hr⟩ := wheelDuties_mem (F := F) (pulseCount (totalRead i s .left))
        (pulseCount (totalRead i s .right)) (motorPart i s).elapsedMs
      rw [← hpwm] at hl hr
      refine ⟨.drives hstate hnoFault (hfrom ▸ hintime) fun w => ?_, ?_⟩
      · cases w with
        | left => exact hl
        | right => exact hr
      · rw [hnone, List.nil_append, hcalls]
        exact commands_wheelCalls (motorPart i s).pwm
  | stops hstate hstop hleft hright =>
      have hzero : (motorPart i s).pwm = fun _ => 0 := by
        funext w
        cases w with
        | left => exact hleft
        | right => exact hright
      refine ⟨.stops hstate hzero, ?_⟩
      have hall := hstop.append hbutton (List.forall_mem_nil _)
      rw [List.append_nil] at hall
      rw [hzero]
      exact hall

omit [CFloat.Whole F] in
/-- Before its motor calls an iteration has at most lost duties. -/
theorem atRightTotal_cases {i : StraightInput F} {s : StraightSystem F}
    (h : s.shared.motor.Coherent) :
    (atRightTotal i s).motor.Coherent ∧
      ∀ w, (atRightTotal i s).motor.duty w = 0 ∨
        (atRightTotal i s).motor.duty w = s.shared.motor.duty w := by
  have hreset : (resetEncoders (reading i s) (buttonRead s) (s.shared.setTick i.now)).motor =
      (s.shared.setTick i.now).motor := by
    rw [resetEncoders]
    split_ifs <;> rfl
  have hticked : (s.shared.setTick i.now).motor.Coherent := ⟨h.config, h.silent⟩
  rw [atRightTotal, atLeftTotal, ← List.foldl_append]
  rw [← hreset] at hticked
  obtain ⟨hcoherent, hduty⟩ := interrupts_cases hticked (i.beforeLeft ++ i.beforeRight)
  refine ⟨hcoherent, fun w => (hduty w).imp_right fun hsame => hsame.trans ?_⟩
  rw [hreset]
  rfl

/-- After an iteration a wheel has the duty that is published for it, or none. -/
theorem motor_controlTask (h : s.shared.motor.Coherent) :
    (controlTask i s).shared.motor.Coherent ∧
      ∀ w, (controlTask i s).shared.motor.duty w = 0 ∨
        (controlTask i s).shared.motor.duty w = (controlTask i s).snapshot.pwm w := by
  obtain ⟨hbefore, -⟩ := atRightTotal_cases (i := i) h
  obtain ⟨houtcome, hcalls, hcovers⟩ := outcome i s
  have hrange : ∀ w, |(motorPart i s).pwm w| ≤ 1000 := fun w => by
    rw [abs_le]
    cases houtcome with
    | drives _ _ _ hpwm => rcases hpwm w with ⟨-, hzero⟩ | ⟨-, hlo, hhi⟩ <;> omega
    | stops _ hzero =>
        have := congrFun hzero w
        omega
  rw [pwm_controlTask]
  obtain ⟨hafter, hduty⟩ := makeCalls_cases hbefore i.between hrange hcalls
  exact ⟨hafter, fun w => hduty w (Or.inr (Or.inr (hcovers w)))⟩

end Iteration

/-! ### Runs -/

section Runs

variable {F : Type*} [CFloat F]

/-- A wheel stands still, or the car runs and the wheel has the duty that is displayed, which
drives it ahead. -/
def Safe (s : StraightSystem F) : Prop :=
  ∀ w, s.shared.motor.duty w = 0 ∨ s.task.state = .running ∧
    s.shared.motor.duty w = s.snapshot.pwm w ∧ 205 ≤ s.snapshot.pwm w ∧ s.snapshot.pwm w ≤ 315

/-- A wheel that is driven after an iteration was short of its target; the iteration found no
fault and the run not too old. A fault that it found, it has stopped for. -/
def SafeIteration (s : StraightSystem F) : StraightEvent F → Prop
  | .control i =>
      (∀ w, (controlTask i s).shared.motor.duty w ≠ 0 →
        systemFaultIsActive s.shared.supervisor.fault = false ∧
          i.now - (controlTask i s).task.runStartedMs ≤ runTimeoutMs ∧
          pulseCount (totalRead i s w) < targetPulsesOf F w) ∧
      (systemFaultIsActive s.shared.supervisor.fault = true →
        (controlTask i s).task.state = .fault)
  | .interruption _ => True

/-- Once the state is the fault state it stays so, with both duties 0. -/
def StaysInFault (s : StraightSystem F) (run : List (StraightEvent F)) : Prop :=
  ∀ before since, run = before ++ since → (exec step s before).task.state = .fault →
    EachState step (fun s => s.task.state = .fault ∧ ∀ w, s.shared.motor.duty w = 0)
      (exec step s before) since

structure Inv (s : StraightSystem F) : Prop where
  coherent : s.shared.motor.Coherent
  safe : Safe s

variable [CFloat.Whole F]

theorem inv_step (s : StraightSystem F) (e : StraightEvent F) (h : Inv s) : Inv (step s e) := by
  cases e with
  | interruption e =>
      obtain ⟨hcoherent, hduty⟩ := interrupt_cases h.coherent e
      refine ⟨hcoherent, fun w => ?_⟩
      rcases hduty w with hzero | hsame
      · exact Or.inl hzero
      · have hduty' : (step s (.interruption e)).shared.motor.duty w = s.shared.motor.duty w := hsame
        rw [hduty']
        exact h.safe w
  | control i =>
      obtain ⟨hcoherent, hduty⟩ := motor_controlTask i s h.coherent
      refine ⟨hcoherent, fun w => ?_⟩
      rcases hduty w with hzero | hpublished
      · exact Or.inl hzero
      · rw [step, hpublished, task_controlTask, pwm_controlTask]
        cases (outcome i s).1 with
        | drives hstate _ _ hpwm =>
            rcases hpwm w with ⟨-, hzero⟩ | ⟨-, hmem⟩
            · exact Or.inl hzero
            · exact Or.inr ⟨hstate, rfl, hmem⟩
        | stops _ hzero => exact Or.inl (congrFun hzero w)

theorem safeIteration_of_inv (s : StraightSystem F) (e : StraightEvent F) (h : Inv s) :
    SafeIteration s e := by
  cases e with
  | interruption e => trivial
  | control i =>
      refine ⟨fun w hdriven => ?_, fun hactive => fault_controlTask i s (Or.inl hactive)⟩
      have hpublished := ((motor_controlTask i s h.coherent).2 w).resolve_left hdriven
      rw [hpublished, pwm_controlTask] at hdriven
      rw [task_controlTask]
      cases (outcome i s).1 with
      | drives _ hnoFault hintime hpwm =>
          rcases hpwm w with ⟨-, hzero⟩ | ⟨hshort, -⟩
          · exact absurd hzero hdriven
          · exact ⟨hnoFault, hintime, hshort⟩
      | stops _ hzero => exact absurd (congrFun hzero w) hdriven

omit [CFloat.Whole F] in
theorem inv_start (b : Board) : Inv (start b : StraightSystem F) where
  coherent := coherent_bspMotorInit b
  safe w := Or.inl (duty_bspMotorInit b w)

omit [CFloat.Whole F] in
theorem fault_step (s : StraightSystem F) (e : StraightEvent F) (h : s.task.state = .fault) :
    (step s e).task.state = .fault := by
  cases e with
  | interruption e => exact h
  | control i => exact fault_controlTask i s (Or.inr h)

theorem staysInFault {s : StraightSystem F} (h : Inv s) (run : List (StraightEvent F)) :
    StaysInFault s run := by
  rintro before since rfl hfault pre post rfl
  have hinv := exec_invariant inv_step h (before ++ pre)
  rw [exec_append] at hinv
  have hstays : (exec step (exec step s before) pre).task.state = .fault :=
    exec_invariant (I := fun s : StraightSystem F => s.task.state = .fault) fault_step hfault pre
  refine ⟨hstays, fun w => (hinv.safe w).resolve_right fun hdriven => ?_⟩
  rw [hstays] at hdriven
  cases hdriven.1

/-- In arithmetic that rounds, for every run from the start and whatever interrupts the
control task where: no wheel is ever driven but ahead and in a run, with the duty that is
displayed; it is driven only by iterations that find no fault, in the time of a run and up to
its target; and from the fault state on both wheels stand still. -/
theorem straight_safe (F : Type*) [CFloat F] [CFloat.Whole F] (b : Board)
    (run : List (StraightEvent F)) :
    EachState step Safe (start b) run ∧ EachStep step SafeIteration (start b) run ∧
      StaysInFault (start b) run := by
  refine ⟨?_, ?_, staysInFault (inv_start b) run⟩
  · rintro pre post rfl
    exact (exec_invariant inv_step (inv_start b) pre).safe
  · exact EachStep.of_invariant inv_step safeIteration_of_inv (inv_start b)

/-- An iteration with nothing in between. -/
def quietIteration (now : UInt32) : StraightInput Single :=
  { now
    imu :=
      { sequence := 0, timestampMs := now, accelG := (0.0, 0.0, 1.0), gyroDps := (0.0, 0.0, 0.0)
        temperatureC := 25.0, pitchDeg := 0.0, rollDeg := 0.0, yawDeg := 0.0, gyroBiasZDps := 0.0
        gyroScaleZ := 1.0, status := 0, state := .ready, yawCalState := .idle, stationary := true
        ready := true }
    beforeLeft := [], beforeRight := [], between := fun _ => [] }

/-- The button is held for three iterations, by which the car runs; then a fault is raised. -/
theorem straight_safe_single :
    ((exec step (start .atReset) [.control (quietIteration 10), .control (quietIteration 20),
        .control (quietIteration 30)]).task.state = .running ∧
      (exec step (start .atReset) [.control (quietIteration 10), .control (quietIteration 20),
        .control (quietIteration 30)]).shared.motor.duty .left = 300) ∧
    StaysInFault (start .atReset)
      [.control (quietIteration 10), .control (quietIteration 20), .control (quietIteration 30),
        .interruption (.faultRaise .imu 7), .control (quietIteration 40)] :=
  ⟨by decide +kernel, (straight_safe Single .atReset _).2.2⟩

end Runs

end NuedcFirmware.Tests.Straight
