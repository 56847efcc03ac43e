import NuedcFirmware.App.Firmware
import NuedcFirmware.Lib.Run

/-!
What drives the wheels.

An iteration of the control task takes the pending requests, sets the target
speeds and commands both duties. By which of its modes it does so depends on the
application state and the direct duty test after the requests are taken; both are
functions of the state before the iteration (`nextState`, `nextDirect`), and
`duty_controlTask` gives the duties from them. No other step of the system changes
a mode or gives a stopped wheel a duty (`control_or_frame`).
-/

namespace NuedcFirmware.App

open NuedcFirmware.Lib NuedcFirmware.Platform NuedcFirmware.Modules
open NuedcFirmware.Control NuedcFirmware.System

variable {F : Type*} [CMath F]

/-! ### Taking the requests -/

/-- The application state after the pending requests are taken: stop, start and
direct duty are looked at in this order. -/
def nextState (fw : Firmware F) : AppState :=
  if fw.telemetry.dutyRequestPending then .idle
  else if fw.telemetry.startRequest ∧ fw.ctx.imuReady then .run
  else if fw.telemetry.stopRequest then .idle
  else fw.ctx.state

/-- The direct duty test after the pending requests are taken. -/
def nextDirect (nowMs : UInt32) (fw : Firmware F) : DirectDuty :=
  if fw.telemetry.dutyRequestPending then
    { active := true
      left := fw.telemetry.dutyRequest.leftPwm
      right := fw.telemetry.dutyRequest.rightPwm
      deadlineMs :=
        nowMs + if fw.telemetry.dutyRequest.holdMs = 0 then 800 else fw.telemetry.dutyRequest.holdMs }
  else fw.ctx.chassis.direct

/-- What the parts of the control task keep, besides what each is there to change. -/
structure Keeps (fw fw' : Firmware F) : Prop where
  imuReady : fw'.ctx.imuReady = fw.ctx.imuReady
  supervisor : fw'.supervisor = fw.supervisor
  coherent : fw.motor.Coherent → fw'.motor.Coherent

omit [CMath F] in
theorem Keeps.trans {fw fw' fw'' : Firmware F} (h : Keeps fw fw') (h' : Keeps fw' fw'') :
    Keeps fw fw'' where
  imuReady := h'.imuReady.trans h.imuReady
  supervisor := h'.supervisor.trans h.supervisor
  coherent hc := h'.coherent (h.coherent hc)

section Requests

variable (nowMs : UInt32) (state : AppState) (fw : Firmware F)

@[simp] theorem state_appStateSet : (appStateSet state fw).ctx.state = state := by
  rw [appStateSet]
  split_ifs <;> rfl

@[simp] theorem direct_appStateSet :
    (appStateSet state fw).ctx.chassis.direct = fw.ctx.chassis.direct := by
  rw [appStateSet]
  split_ifs <;> rfl

@[simp] theorem telemetry_appStateSet : (appStateSet state fw).telemetry = fw.telemetry := by
  rw [appStateSet]
  split_ifs <;> rfl

theorem keeps_appStateSet : Keeps fw (appStateSet state fw) := by
  rw [appStateSet]
  split_ifs
  · exact ⟨rfl, rfl, fun hc => coherent_setDuties hc 0 0⟩
  · exact ⟨rfl, rfl, id⟩

theorem takeStopRequest_spec :
    (takeStopRequest fw).ctx.state =
        (if fw.telemetry.stopRequest then .idle else fw.ctx.state) ∧
      (takeStopRequest fw).ctx.chassis.direct = fw.ctx.chassis.direct ∧
      (takeStopRequest fw).telemetry = { fw.telemetry with stopRequest := false } ∧
      Keeps fw (takeStopRequest fw) := by
  let taken : Firmware F := { fw with telemetry := { fw.telemetry with stopRequest := false } }
  have htake : takeStopRequest fw =
      if fw.telemetry.stopRequest then appStateSet .idle taken else taken := rfl
  have hkeeps := keeps_appStateSet .idle taken
  rw [htake]
  split_ifs
  · exact ⟨state_appStateSet .idle taken, direct_appStateSet .idle taken,
      telemetry_appStateSet .idle taken, hkeeps.imuReady, hkeeps.supervisor, hkeeps.coherent⟩
  · exact ⟨rfl, rfl, rfl, rfl, rfl, id⟩

theorem takeStartRequest_spec :
    (takeStartRequest fw).ctx.state =
        (if fw.telemetry.startRequest ∧ fw.ctx.imuReady then .run else fw.ctx.state) ∧
      (takeStartRequest fw).ctx.chassis.direct = fw.ctx.chassis.direct ∧
      (takeStartRequest fw).telemetry = { fw.telemetry with startRequest := false } ∧
      Keeps fw (takeStartRequest fw) := by
  let taken : Firmware F := { fw with telemetry := { fw.telemetry with startRequest := false } }
  have htake : takeStartRequest fw =
      if fw.telemetry.startRequest ∧ fw.ctx.imuReady then appStateSet .run (resetOdometry taken)
      else taken := rfl
  have hkeeps := keeps_appStateSet .run (resetOdometry taken)
  rw [htake]
  split_ifs
  · exact ⟨state_appStateSet .run (resetOdometry taken),
      direct_appStateSet .run (resetOdometry taken), telemetry_appStateSet .run (resetOdometry taken),
      hkeeps.imuReady, hkeeps.supervisor, hkeeps.coherent⟩
  · exact ⟨rfl, rfl, rfl, rfl, rfl, id⟩

theorem takeDutyRequest_spec :
    (takeDutyRequest nowMs fw).ctx.state =
        (if fw.telemetry.dutyRequestPending then .idle else fw.ctx.state) ∧
      (takeDutyRequest nowMs fw).ctx.chassis.direct = nextDirect nowMs fw ∧
      (takeDutyRequest nowMs fw).telemetry = { fw.telemetry with dutyRequestPending := false } ∧
      Keeps fw (takeDutyRequest nowMs fw) := by
  cases h : fw.telemetry.dutyRequestPending with
  | false =>
      have htake : takeDutyRequest nowMs fw = fw := by
        rw [takeDutyRequest, telemetryConsumeDutyRequest, h]
        rfl
      have htelemetry : { fw.telemetry with dutyRequestPending := false } = fw.telemetry := by
        rw [← h]
      rw [htake, nextDirect, h, htelemetry]
      exact ⟨rfl, rfl, rfl, rfl, rfl, id⟩
  | true =>
      -- the state is set first, which keeps the chassis but for its target speeds
      let taken : Firmware F :=
        { fw with telemetry := { fw.telemetry with dutyRequestPending := false } }
      have htake : takeDutyRequest nowMs fw =
          { appStateSet .idle taken with
            ctx :=
              { (appStateSet .idle taken).ctx with
                chassis := controlChassisSetDebugDuty (appStateSet .idle taken).ctx.chassis
                  fw.telemetry.dutyRequest.leftPwm fw.telemetry.dutyRequest.rightPwm nowMs
                  fw.telemetry.dutyRequest.holdMs } } := by
        rw [takeDutyRequest, telemetryConsumeDutyRequest, h]
        rfl
      have hkeeps := keeps_appStateSet .idle taken
      rw [htake, nextDirect, h]
      exact ⟨state_appStateSet .idle taken, rfl, telemetry_appStateSet .idle taken,
        hkeeps.imuReady, hkeeps.supervisor, hkeeps.coherent⟩

/-- What `App_State_Tick` does, from the state before it: all three requests are
taken, whatever becomes of them. -/
theorem appStateTick_spec :
    (appStateTick nowMs fw).ctx.state = nextState fw ∧
      (appStateTick nowMs fw).ctx.chassis.direct = nextDirect nowMs fw ∧
      (appStateTick nowMs fw).telemetry =
        { fw.telemetry with
          stopRequest := false, startRequest := false, dutyRequestPending := false } ∧
      Keeps fw (appStateTick nowMs fw) := by
  obtain ⟨hstate₁, hdirect₁, htel₁, hkeeps₁⟩ := takeStopRequest_spec fw
  obtain ⟨hstate₂, hdirect₂, htel₂, hkeeps₂⟩ := takeStartRequest_spec (takeStopRequest fw)
  obtain ⟨hstate₃, hdirect₃, htel₃, hkeeps₃⟩ :=
    takeDutyRequest_spec nowMs (takeStartRequest (takeStopRequest fw))
  -- each branch sees the mailboxes as they were, since the others are not its own
  rw [appStateTick]
  refine ⟨?_, ?_, ?_, (hkeeps₁.trans hkeeps₂).trans hkeeps₃⟩
  · rw [hstate₃, hstate₂, hstate₁, htel₂, htel₁, hkeeps₁.imuReady]
    rfl
  · rw [hdirect₃, nextDirect, nextDirect, hdirect₂, hdirect₁, htel₂, htel₁]
  · rw [htel₃, htel₂, htel₁]

end Requests

/-! ### The control iteration -/

section Control

variable (nowMs : UInt32) (fw : Firmware F)

/-- The state in which a control iteration enters `Control_Chassis_Tick`. -/
def entered : Firmware F := appMissionTick nowMs (appStateTick nowMs (fw.setTick nowMs))

theorem appMissionTick_spec :
    (appMissionTick nowMs fw).ctx.state = fw.ctx.state ∧
      (appMissionTick nowMs fw).ctx.chassis.direct = fw.ctx.chassis.direct ∧
      (appMissionTick nowMs fw).telemetry = fw.telemetry ∧ Keeps fw (appMissionTick nowMs fw) := by
  rw [appMissionTick]
  split_ifs
  · exact ⟨rfl, rfl, rfl, rfl, rfl, id⟩
  · exact ⟨rfl, rfl, rfl, rfl, rfl, id⟩

theorem entered_spec :
    (entered nowMs fw).ctx.state = nextState fw ∧
      (entered nowMs fw).ctx.chassis.direct = nextDirect nowMs fw ∧
      (entered nowMs fw).telemetry =
        { fw.telemetry with
          stopRequest := false, startRequest := false, dutyRequestPending := false } ∧
      Keeps fw (entered nowMs fw) := by
  obtain ⟨hstate, hdirect, htelemetry, hkeeps⟩ := appStateTick_spec nowMs (fw.setTick nowMs)
  obtain ⟨hstate', hdirect', htelemetry', hkeeps'⟩ :=
    appMissionTick_spec nowMs (appStateTick nowMs (fw.setTick nowMs))
  have htick : Keeps fw (fw.setTick nowMs) := ⟨rfl, rfl, fun hc => ⟨hc.config, hc.silent⟩⟩
  exact ⟨hstate'.trans hstate, hdirect'.trans hdirect, htelemetry'.trans htelemetry,
    (htick.trans hkeeps).trans hkeeps'⟩

/-- The duty that a control iteration commands to a wheel: in RUN the one its speed
loop asks for, else that of a direct duty test before its deadline, else 0. -/
def demand (w : Wheel) : ℤ :=
  if nextState fw = .run then
    speedDemand (entered nowMs fw).ctx.chassis (entered nowMs fw).encoder w
  else if (nextDirect nowMs fw).active ∧ nowMs < (nextDirect nowMs fw).deadlineMs then
    (nextDirect nowMs fw).duty w
  else 0

/-- A direct duty test moves a wheel: it is on, before its deadline, and has a
positive duty for the wheel. -/
def LiveTest (nowMs : UInt32) (direct : DirectDuty) (w : Wheel) : Prop :=
  direct.active = true ∧ nowMs < direct.deadlineMs ∧ 0 < direct.duty w

/-- In no mode a positive duty is demanded. -/
theorem demand_nonpos_iff (w : Wheel) :
    demand nowMs fw w ≤ 0 ↔
      (nextState fw = .run →
        speedDemand (entered nowMs fw).ctx.chassis (entered nowMs fw).encoder w ≤ 0) ∧
      (nextState fw ≠ .run → ¬ LiveTest nowMs (nextDirect nowMs fw) w) := by
  rw [demand]
  by_cases hrun : nextState fw = .run
  · simp only [hrun, if_true, forall_const, ne_eq, not_true_eq_false, false_imp_iff, and_true]
  · simp only [hrun, if_false, false_imp_iff, ne_eq, not_false_eq_true, forall_const, true_and]
    by_cases hlive : (nextDirect nowMs fw).active = true ∧ nowMs < (nextDirect nowMs fw).deadlineMs
    · rw [if_pos hlive, LiveTest, ← and_assoc, and_iff_right hlive, not_lt]
    · rw [if_neg hlive]
      exact iff_of_true le_rfl fun h => hlive ⟨h.1, h.2.1⟩

theorem commandedDuty_entered (w : Wheel) :
    commandedDuty (entered nowMs fw).ctx.chassis ((entered nowMs fw).ctx.state = .run) nowMs
      (entered nowMs fw).encoder w = demand nowMs fw w := by
  obtain ⟨hstate, hdirect, -, -⟩ := entered_spec nowMs fw
  simp only [commandedDuty, demand, hstate, hdirect, decide_eq_true_eq]

theorem motor_chassisTick :
    (chassisTick nowMs fw).motor =
      (controlChassisTick fw.ctx.chassis (fw.ctx.state = .run) nowMs fw.encoder fw.motor).2.2 := rfl

theorem direct_chassisTick :
    (chassisTick nowMs fw).ctx.chassis.direct =
      (controlChassisTick fw.ctx.chassis (fw.ctx.state = .run) nowMs fw.encoder fw.motor).1.direct :=
  rfl

theorem controlTask_eq :
    controlTask nowMs fw = (chassisTick nowMs (entered nowMs fw)).beat .control nowMs := rfl

theorem motor_controlTask :
    (controlTask nowMs fw).motor =
      setDuties (demand nowMs fw .left) (demand nowMs fw .right) (entered nowMs fw).motor := by
  calc (controlTask nowMs fw).motor
      = (chassisTick nowMs (entered nowMs fw)).motor := by
        rw [controlTask_eq]
        rfl
    _ = setDuties (demand nowMs fw .left) (demand nowMs fw .right) (entered nowMs fw).motor := by
        rw [motor_chassisTick, motor_controlChassisTick, commandedDuty_entered,
          commandedDuty_entered]

/-- Both duties are the commanded ones, cut to 0 and full scale. -/
theorem duty_controlTask {fw : Firmware F} (h : fw.motor.Coherent) (w : Wheel) :
    (controlTask nowMs fw).motor.duty w = max 0 (min (demand nowMs fw w) 1000) := by
  rw [motor_controlTask, duty_setDuties ((entered_spec nowMs fw).2.2.2.coherent h)]
  cases w <;> rfl

theorem duty_controlTask_eq_zero {fw : Firmware F} (h : fw.motor.Coherent) (w : Wheel) :
    (controlTask nowMs fw).motor.duty w = 0 ↔ demand nowMs fw w ≤ 0 := by
  rw [duty_controlTask nowMs h]
  omega

theorem coherent_controlTask {fw : Firmware F} (h : fw.motor.Coherent) :
    (controlTask nowMs fw).motor.Coherent := by
  rw [motor_controlTask]
  exact coherent_setDuties ((entered_spec nowMs fw).2.2.2.coherent h) _ _

/-- The direct duty test after a control iteration: over once its deadline is
reached outside RUN. -/
theorem direct_controlTask :
    (controlTask nowMs fw).ctx.chassis.direct =
      if nextState fw ≠ .run ∧ (nextDirect nowMs fw).active ∧
        (nextDirect nowMs fw).deadlineMs ≤ nowMs then .cleared else nextDirect nowMs fw := by
  obtain ⟨hstate, hdirect, -, -⟩ := entered_spec nowMs fw
  have hbeat : (controlTask nowMs fw).ctx.chassis.direct =
      (chassisTick nowMs (entered nowMs fw)).ctx.chassis.direct := by
    rw [controlTask_eq]
    rfl
  rw [hbeat, direct_chassisTick, direct_controlChassisTick]
  simp only [hdirect, hstate, decide_eq_false_iff_not, ne_eq]

theorem state_controlTask : (controlTask nowMs fw).ctx.state = nextState fw :=
  (entered_spec nowMs fw).1

theorem telemetry_controlTask :
    (controlTask nowMs fw).telemetry =
      { fw.telemetry with
        stopRequest := false, startRequest := false, dutyRequestPending := false } :=
  (entered_spec nowMs fw).2.2.1

theorem fault_controlTask : (controlTask nowMs fw).supervisor.fault = fw.supervisor.fault := by
  have hentered := congrArg Supervisor.fault (entered_spec nowMs fw).2.2.2.supervisor
  exact hentered

end Control

/-! ### The other steps -/

/-- A fault is active. -/
def Faulty (fw : Firmware F) : Prop := systemFaultIsActive fw.supervisor.fault = true

/-- What every step but the control iteration keeps: the modes, an active fault, and
stopped wheels. -/
structure Frame (fw fw' : Firmware F) : Prop where
  state : fw'.ctx.state = fw.ctx.state
  direct : fw'.ctx.chassis.direct = fw.ctx.chassis.direct
  coherent : fw.motor.Coherent → fw'.motor.Coherent
  stopped : fw.motor.Coherent → (∀ w, fw.motor.duty w = 0) → ∀ w, fw'.motor.duty w = 0
  faulty : Faulty fw → Faulty fw'
  raised : fw.motor.Coherent → ¬ Faulty fw → Faulty fw' → ∀ w, fw'.motor.duty w = 0

section Frame

variable {F : Type*} {fw fw' : Firmware F}

/-- A step that leaves the modes, the fault latch and the duties alone. -/
theorem Frame.of_quiet (hstate : fw'.ctx.state = fw.ctx.state)
    (hdirect : fw'.ctx.chassis.direct = fw.ctx.chassis.direct)
    (hcoherent : fw.motor.Coherent → fw'.motor.Coherent)
    (hduty : ∀ w, fw'.motor.duty w = fw.motor.duty w)
    (hfault : fw'.supervisor.fault = fw.supervisor.fault) : Frame fw fw' where
  state := hstate
  direct := hdirect
  coherent := hcoherent
  stopped _ hzero w := (hduty w).trans (hzero w)
  faulty hfaulty := by rwa [Faulty, hfault]
  raised _ hcalm hfaulty := by
    rw [Faulty, hfault] at hfaulty
    exact absurd hfaulty hcalm

/-- A step that stops both wheels and may raise a fault. -/
theorem Frame.of_stopped (hstate : fw'.ctx.state = fw.ctx.state)
    (hdirect : fw'.ctx.chassis.direct = fw.ctx.chassis.direct)
    (hmotor : fw'.motor = setDuties 0 0 fw.motor) (hfaulty : Faulty fw → Faulty fw') :
    Frame fw fw' where
  state := hstate
  direct := hdirect
  coherent hc := by
    rw [hmotor]
    exact coherent_setDuties hc 0 0
  stopped hc _ w := by
    rw [hmotor]
    exact duty_setDuties_zero hc w
  faulty := hfaulty
  raised hc _ _ w := by
    rw [hmotor]
    exact duty_setDuties_zero hc w

theorem faulty_raiseFault (code : SystemFaultCode) (detail : UInt32) (h : Faulty fw) :
    Faulty (fw.raiseFault code detail) := by
  have hkept := isActive_systemFaultRaise h code detail fw.motor
  show systemFaultIsActive (systemFaultRaise code detail fw.supervisor.fault fw.motor).1 = true
  rw [hkept]
  exact h

variable (fw)

theorem frame_raiseFault (code : SystemFaultCode) (detail : UInt32) :
    Frame fw (fw.raiseFault code detail) :=
  .of_stopped rfl rfl rfl (faulty_raiseFault code detail)

theorem frame_fastTask (nowMs : UInt32) : Frame fw (fastTask nowMs fw) := by
  let polled := (fw.setTick nowMs).motor
  have htick : fw.motor.Coherent → polled.Coherent := fun hc => ⟨hc.config, hc.silent⟩
  have hmotor : (fastTask nowMs fw).motor = bspMotorSafetyTick nowMs polled := rfl
  refine ⟨rfl, rfl, fun hc => ?_, fun hc hzero w => ?_, id, fun _ hcalm hfaulty => ?_⟩
  · rw [hmotor]
    exact coherent_bspMotorSafetyTick (htick hc) nowMs
  · rw [hmotor]
    rcases bspMotorSafetyTick_cases (htick hc) nowMs with ⟨hstopped, -⟩ | ⟨hkept, -⟩
    · exact hstopped w
    · rw [hkept]
      exact hzero w
  · exact absurd hfaulty hcalm

theorem frame_healthTaskIteration (nowMs : UInt32) : Frame fw (healthTaskIteration nowMs fw) := by
  have hstep : healthTaskIteration nowMs fw =
      { fw with
        supervisor := (healthTask nowMs fw.supervisor fw.motor).1
        motor := (healthTask nowMs fw.supervisor fw.motor).2 } := rfl
  rcases healthTask_cases nowMs fw.supervisor fw.motor with
    ⟨-, -, htask⟩ | ⟨-, detail, htask⟩ | ⟨-, -, htask⟩
  · rw [hstep, htask]
    exact .of_quiet rfl rfl id (fun _ => rfl) rfl
  · rw [hstep, htask]
    exact frame_raiseFault fw .taskStale detail
  · rw [hstep, htask]
    exact .of_quiet rfl rfl id (fun _ => rfl) rfl

theorem frame_step [CMath F] {e : Event F} (h : ∀ nowMs, e ≠ .control nowMs) :
    Frame fw (step fw e) := by
  -- some steps change `g_tick_ms`, pins and edge bits of the board, which no PWM depends on
  cases e with
  | rxByte byte => exact .of_quiet rfl rfl id (fun _ => rfl) rfl
  | inputs level edge =>
      exact .of_quiet rfl rfl (fun hc => ⟨hc.config, hc.silent⟩) (fun _ => rfl) rfl
  | encoderIrq => exact .of_quiet rfl rfl (fun hc => ⟨hc.config, hc.silent⟩) (fun _ => rfl) rfl
  | imuService imu => exact .of_quiet rfl rfl id (fun _ => rfl) rfl
  | imuBeat nowMs => exact .of_quiet rfl rfl id (fun _ => rfl) rfl
  | faultRaise code detail => exact frame_raiseFault fw code detail
  | fast nowMs => exact frame_fastTask fw nowMs
  | control nowMs => exact absurd rfl (h nowMs)
  | telemetry nowMs =>
      exact .of_quiet rfl rfl (fun hc => ⟨hc.config, hc.silent⟩) (fun _ => rfl) rfl
  | health nowMs => exact frame_healthTaskIteration fw nowMs

/-- A step is a control iteration or keeps the frame. -/
theorem control_or_frame [CMath F] (e : Event F) :
    (∃ nowMs, e = .control nowMs) ∨ (∀ nowMs, e ≠ .control nowMs) ∧ Frame fw (step fw e) := by
  by_cases hcontrol : ∃ nowMs, e = .control nowMs
  · exact Or.inl hcontrol
  · have hother := not_exists.mp hcontrol
    exact Or.inr ⟨hother, frame_step fw hother⟩

end Frame

/-! ### Runs -/

theorem coherent_step {fw : Firmware F} (h : fw.motor.Coherent) (e : Event F) :
    (step fw e).motor.Coherent := by
  rcases control_or_frame fw e with ⟨nowMs, rfl⟩ | ⟨-, hframe⟩
  · exact coherent_controlTask nowMs h
  · exact hframe.coherent h

/-- The wheels are set to duty 0 on the board that the encoder module has prepared. -/
theorem motor_appInit (b : Board) :
    ∃ motor : BspMotor, motor.Coherent ∧ (appInit b : Firmware F).motor = setDuties 0 0 motor := by
  have hc := coherent_bspMotorInit b
  exact ⟨{ bspMotorInit b with board := group1Clear encoderPin (bspMotorInit b).board },
    ⟨hc.config, hc.silent⟩, rfl⟩

theorem coherent_appInit (b : Board) : (appInit b : Firmware F).motor.Coherent := by
  obtain ⟨motor, hc, hmotor⟩ := motor_appInit (F := F) b
  rw [hmotor]
  exact coherent_setDuties hc 0 0

theorem duty_appInit (b : Board) (w : Wheel) : (appInit b : Firmware F).motor.duty w = 0 := by
  obtain ⟨motor, hc, hmotor⟩ := motor_appInit (F := F) b
  rw [hmotor]
  exact duty_setDuties_zero hc w

/-- A run that only receives bytes changes nothing but the telemetry. -/
theorem exec_rxBytes (fw : Firmware F) (bytes : List UInt8) :
    exec step fw (bytes.map .rxByte) =
      { fw with
        telemetry := bytes.foldl (fun t byte => (telemetryOnRxByte byte t).1) fw.telemetry } := by
  induction bytes generalizing fw with
  | nil => rfl
  | cons byte bytes ih =>
      rw [List.map_cons, exec_cons, ih]
      rfl

/-- The line `$DUTY,300,300,800`, byte by byte. -/
def dutyLine : List (Event F) := (ascii "$DUTY,300,300,800\n").map .rxByte

/-- What the line leaves in the mailboxes. -/
theorem exec_dutyLine {fw : Firmware F} (h : fw.telemetry = .initial) :
    exec step fw dutyLine =
      { fw with
        telemetry := { Telemetry.initial with
          dutyRequest := ⟨300, 300, 800⟩, dutyRequestPending := true } } := by
  have hreceived : (ascii "$DUTY,300,300,800\n").foldl
      (fun t byte => (telemetryOnRxByte byte t).1) Telemetry.initial =
        { Telemetry.initial with
          dutyRequest := ⟨300, 300, 800⟩, dutyRequestPending := true } := by
    decide
  rw [dutyLine, exec_rxBytes, h, hreceived]

theorem coherent_exec (b : Board) (run : List (Event F)) :
    (exec step (appInit b : Firmware F) run).motor.Coherent :=
  exec_invariant (I := fun fw : Firmware F => fw.motor.Coherent) (fun _ e h => coherent_step h e)
    (coherent_appInit b) run

end NuedcFirmware.App
