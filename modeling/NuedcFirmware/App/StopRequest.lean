import NuedcFirmware.App.LastCommand

/-!
The stop request.

Taking a stop request sets the application to IDLE, but a direct duty test stays as
it was: `Control_Chassis_Tick` finds it again, in the same iteration or after a run
that came between. So a stop stops the car exactly when no test is live.
-/

namespace NuedcFirmware.App.StopRequest

open NuedcFirmware.Lib NuedcFirmware.Platform NuedcFirmware.Modules
open NuedcFirmware.Control

variable {F : Type*} [CMath F]

/-- The next control iteration takes a stop request, and no start or duty request. -/
structure StopOnly (fw : Firmware F) : Prop where
  stop : fw.telemetry.stopRequest = true
  start : fw.telemetry.startRequest = false
  duty : fw.telemetry.dutyRequestPending = false

/-- No control iteration takes a start or a duty request. -/
def Quiet (fw : Firmware F) (e : Event F) : Prop :=
  ∀ nowMs, e = .control nowMs →
    fw.telemetry.startRequest = false ∧ fw.telemetry.dutyRequestPending = false

/-- A control iteration ends with both duties 0. -/
def EndsStopped (fw : Firmware F) (e : Event F) : Prop :=
  ∀ nowMs, e = .control nowMs → ∀ w, (step fw e).motor.duty w = 0

/-- A control iteration stops the car: it ends in IDLE with both duties 0, and so do
the following ones, as far as their duties go, until a start or duty request is
taken. -/
def StopsCar (fw : Firmware F) (nowMs : UInt32) : Prop :=
  (step fw (.control nowMs)).ctx.state = .idle ∧
    (∀ w, (step fw (.control nowMs)).motor.duty w = 0) ∧
    ∀ run, EachStep step Quiet (step fw (.control nowMs)) run →
      EachStep step EndsStopped (step fw (.control nowMs)) run

/-- The application does not run, and no direct duty test could move a wheel. -/
structure Halted (fw : Firmware F) : Prop where
  coherent : fw.motor.Coherent
  state : fw.ctx.state ≠ .run
  harmless : fw.ctx.chassis.direct.active = true → ∀ w, fw.ctx.chassis.direct.duty w ≤ 0

section Modes

variable {fw : Firmware F} (nowMs : UInt32)

omit [CMath F] in
theorem StopOnly.nextState (h : StopOnly fw) : nextState fw = .idle := by
  simp [App.nextState, h.stop, h.start, h.duty]

omit [CMath F] in
theorem StopOnly.nextDirect (h : StopOnly fw) : nextDirect nowMs fw = fw.ctx.chassis.direct := by
  simp [App.nextDirect, h.duty]

omit [CMath F] in
/-- Without a start or duty request, a state other than RUN stays so. -/
theorem nextState_ne_run (hstart : fw.telemetry.startRequest = false)
    (hduty : fw.telemetry.dutyRequestPending = false) (hstate : fw.ctx.state ≠ .run) :
    nextState fw ≠ .run := by
  simp only [App.nextState, hstart, hduty, Bool.false_eq_true, false_and, if_false]
  split_ifs
  · exact AppState.noConfusion
  · exact hstate

end Modes

/-! ### After the stop -/

section Step

variable {fw : Firmware F}

/-- An iteration that is not in RUN and finds no live test ends halted, with both
duties 0. -/
theorem halted_controlTask {nowMs : UInt32} (hcoherent : fw.motor.Coherent)
    (hstate : nextState fw ≠ .run) (hlive : ∀ w, ¬ LiveTest nowMs (nextDirect nowMs fw) w) :
    Halted (controlTask nowMs fw) ∧ ∀ w, (controlTask nowMs fw).motor.duty w = 0 := by
  refine ⟨⟨coherent_controlTask nowMs hcoherent, ?_, ?_⟩, fun w => ?_⟩
  · rwa [state_controlTask]
  · rw [direct_controlTask]
    intro hactive w
    by_cases hover : (nextDirect nowMs fw).deadlineMs ≤ nowMs
    · -- the deadline is reached: the test is over
      by_cases hon : (nextDirect nowMs fw).active = true
      · rw [if_pos ⟨hstate, hon, hover⟩] at hactive
        exact absurd hactive Bool.false_ne_true
      · rw [if_neg fun hcond => hon hcond.2.1] at hactive
        exact absurd hactive hon
    · -- before the deadline only a test without a positive duty is not live
      rw [if_neg fun hcond => hover hcond.2.2] at hactive ⊢
      by_contra hpositive
      exact hlive w ⟨hactive, UInt32.not_le.mp hover, not_le.mp hpositive⟩
  · rw [duty_controlTask_eq_zero nowMs hcoherent, demand_nonpos_iff]
    exact ⟨fun hrun => absurd hrun hstate, fun _ => hlive w⟩

theorem Halted.step (h : Halted fw) {e : Event F} (hquiet : Quiet fw e) :
    Halted (step fw e) ∧ EndsStopped fw e := by
  rcases control_or_frame fw e with ⟨nowMs, rfl⟩ | ⟨hother, hframe⟩
  · obtain ⟨hstart, hduty⟩ := hquiet nowMs rfl
    -- no request is taken that could start the car, and the test left over is harmless
    have hdirect : nextDirect nowMs fw = fw.ctx.chassis.direct := by simp [nextDirect, hduty]
    have hlive (w : Wheel) : ¬ LiveTest nowMs (nextDirect nowMs fw) w := by
      rw [hdirect]
      rintro ⟨hactive, -, hpositive⟩
      exact absurd hpositive (not_lt.mpr (h.harmless hactive w))
    obtain ⟨hhalted, hzero⟩ :=
      halted_controlTask h.coherent (nextState_ne_run hstart hduty h.state) hlive
    exact ⟨hhalted, fun _ _ => hzero⟩
  · refine ⟨⟨hframe.coherent h.coherent, ?_, ?_⟩, fun nowMs hnow => absurd hnow (hother nowMs)⟩
    · rw [hframe.state]
      exact h.state
    · rw [hframe.direct]
      exact h.harmless

/-- A halted car stays stopped until a start or duty request is taken. -/
theorem Halted.run (h : Halted fw) {run : List (Event F)} (hquiet : EachStep App.step Quiet fw run) :
    EachStep App.step EndsStopped fw run :=
  hquiet.imp (fun _ _ hh hq => (hh.step hq).1) (fun _ _ hh hq => (hh.step hq).2) h

end Step

/-- `x` is received after a control iteration, which has taken every request. -/
theorem stopOnly_rxByte (nowMs : UInt32) (fw : Firmware F) :
    StopOnly (step (controlTask nowMs fw) (.rxByte 120)) where
  stop := rfl
  start := by
    show (controlTask nowMs fw).telemetry.startRequest = false
    rw [telemetry_controlTask]
  duty := by
    show (controlTask nowMs fw).telemetry.dutyRequestPending = false
    rw [telemetry_controlTask]

/-- From a coherent state, a stop that is taken alone stops the car exactly if no test
is live. -/
theorem stopsCar_iff_of_coherent {fw : Firmware F} (hcoherent : fw.motor.Coherent)
    (h : StopOnly fw) (nowMs : UInt32) :
    StopsCar fw nowMs ↔ ∀ w, ¬ LiveTest nowMs fw.ctx.chassis.direct w := by
  have hidle : nextState fw ≠ .run := by
    rw [h.nextState]
    exact AppState.noConfusion
  rw [← h.nextDirect nowMs]
  constructor
  · rintro ⟨-, hzero, -⟩ w
    have hdemand := (duty_controlTask_eq_zero nowMs hcoherent w).mp (hzero w)
    exact ((demand_nonpos_iff nowMs fw w).mp hdemand).2 hidle
  · intro hlive
    obtain ⟨hhalted, hzero⟩ := halted_controlTask hcoherent hidle hlive
    exact ⟨(state_controlTask nowMs fw).trans h.nextState, hzero, fun _ hquiet => hhalted.run hquiet⟩

/-- In every reachable state: a control iteration that takes a stop request, and no
start or duty request, stops the car if and only if no direct duty test is active,
before its deadline, and with a positive duty. -/
theorem stopsCar_iff (b : Board) (run : List (Event F)) (nowMs : UInt32)
    (h : StopOnly (exec step (appInit b : Firmware F) run)) :
    StopsCar (exec step (appInit b : Firmware F) run) nowMs ↔
      ∀ w, ¬ LiveTest nowMs (exec step (appInit b : Firmware F) run).ctx.chassis.direct w :=
  stopsCar_iff_of_coherent (coherent_exec b run) h nowMs

/-- The IMU comes up, the car is started and runs for an iteration, and then `x` is received. -/
noncomputable def stopDuringRun : List (Event ℝ) :=
  [.imuService LastCommand.imuUp, .fast 5, .rxByte 115, .control 10, .rxByte 120]

/-- The stop that is taken at 20 ms ends the run. -/
theorem stopsCar_running :
    (exec step (appInit Board.atReset) stopDuringRun).ctx.state = .run ∧
      StopsCar (exec step (appInit Board.atReset) stopDuringRun) 20 := by
  obtain ⟨started, hstarted⟩ : ∃ started : Firmware ℝ, started =
      exec step (appInit Board.atReset) [.imuService LastCommand.imuUp, .fast 5, .rxByte 115] :=
    ⟨_, rfl⟩
  have hnext : nextState started = .run := by
    rw [hstarted]
    rfl
  have htest : nextDirect 10 started = .cleared := by
    rw [hstarted]
    rfl
  have hrun : exec step (appInit Board.atReset : Firmware ℝ) stopDuringRun =
      step (controlTask 10 started) (.rxByte 120) := by
    rw [hstarted]
    rfl
  have hdirect : (step (controlTask 10 started) (.rxByte 120)).ctx.chassis.direct = .cleared := by
    show (controlTask 10 started).ctx.chassis.direct = .cleared
    rw [direct_controlTask, if_neg fun h => h.1 hnext, htest]
  have hstop := stopOnly_rxByte 10 started
  rw [← hrun] at hdirect hstop
  refine ⟨?_, (stopsCar_iff Board.atReset stopDuringRun 20 hstop).mpr ?_⟩
  · rw [hrun]
    exact (state_controlTask 10 started).trans hnext
  · rw [hdirect]
    rintro w ⟨hactive, -⟩
    cases hactive

/-! ### A stop during a test -/

/-- `$DUTY,300,300,800` is received and taken at 0 ms, and then `x` is received. -/
def stopDuringTest : List (Event ℝ) := dutyLine ++ [.control 0, .rxByte 120]

/-- The stop that is taken at 10 ms leaves the test on, and both wheels turn. -/
theorem test_survives_stop :
    StopOnly (exec step (appInit Board.atReset) stopDuringTest) ∧
      ¬ StopsCar (exec step (appInit Board.atReset) stopDuringTest) 10 := by
  let received : Firmware ℝ :=
    { (appInit Board.atReset : Firmware ℝ) with
      telemetry := { Telemetry.initial with
        dutyRequest := ⟨300, 300, 800⟩, dutyRequestPending := true } }
  have hreceived : exec step (appInit Board.atReset : Firmware ℝ) dutyLine = received :=
    exec_dutyLine rfl
  have hrun : exec step (appInit Board.atReset : Firmware ℝ) stopDuringTest =
      step (controlTask 0 received) (.rxByte 120) := by
    rw [stopDuringTest, exec_append, hreceived]
    rfl
  have hdirect : (controlTask 0 received).ctx.chassis.direct = ⟨true, 300, 300, 800⟩ := by
    rw [direct_controlTask, if_neg]
    · rfl
    · rintro ⟨-, -, hover⟩
      exact absurd hover (by decide)
  rw [hrun]
  have hstop := stopOnly_rxByte 0 received
  refine ⟨hstop, fun hstops => ?_⟩
  have hcoherent : received.motor.Coherent := coherent_appInit Board.atReset
  have hcoherent' := coherent_step (coherent_controlTask 0 hcoherent) (.rxByte 120)
  refine (stopsCar_iff_of_coherent hcoherent' hstop 10).mp hstops .left ?_
  show LiveTest 10 (controlTask 0 received).ctx.chassis.direct .left
  rw [hdirect]
  exact ⟨rfl, by decide, by decide⟩

end NuedcFirmware.App.StopRequest
