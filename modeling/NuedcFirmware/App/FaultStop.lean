import NuedcFirmware.App.ControlInputs

/-!
Motors under an active fault.

Raising a fault stops both wheels, once. Neither the application state nor a direct
duty test is cleared by it, and the control task does not look at the fault, so its
next iteration commands the wheels anew by whatever mode it finds. The wheels stay
stopped as long as no iteration finds a mode that demands a positive duty. In exact
arithmetic that can be read off the target speeds and the pulses.
-/

namespace NuedcFirmware.App.FaultStop

open NuedcFirmware.Lib NuedcFirmware.Platform NuedcFirmware.Modules
open NuedcFirmware.Control NuedcFirmware.System

variable {F : Type*} [CMath F]

/-- With a fault active, an iteration of the control or fast task ends with both
duties 0. -/
def FaultStops (fw : Firmware F) (e : Event F) : Prop :=
  Faulty fw → (∃ nowMs, e = .control nowMs ∨ e = .fast nowMs) →
    ∀ w, (step fw e).motor.duty w = 0

/-- With a fault active, a control iteration demands no positive duty. -/
def NoDemand (fw : Firmware F) (e : Event F) : Prop :=
  Faulty fw → ∀ nowMs, e = .control nowMs → ∀ w, demand nowMs fw w ≤ 0

/-- With a fault active, a control iteration finds no mode that moves a wheel: in
RUN no target speed is ahead of the pulses by an eighteenth, which is where the
gain of 18 asks for a duty of 1, and outside RUN no direct duty test is live. -/
def NoModeMoves (fw : Firmware ℝ) (e : Event ℝ) : Prop :=
  Faulty fw → ∀ nowMs, e = .control nowMs → ∀ w,
    (nextState fw = .run →
      18.0 * (targetSpeed nowMs fw w - |((toInt32 (foundPulses fw w) : ℤ) : ℝ)|) < 1) ∧
    (nextState fw ≠ .run → ¬ LiveTest nowMs (nextDirect nowMs fw) w)

/-- With a fault active, a control iteration is not in RUN and no direct duty test is
live. -/
def ModesOff (fw : Firmware F) (e : Event F) : Prop :=
  Faulty fw → ∀ nowMs, e = .control nowMs →
    nextState fw ≠ .run ∧ ∀ w, ¬ LiveTest nowMs (nextDirect nowMs fw) w

/-- The invariant: under an active fault the wheels are stopped. -/
structure Inv (fw : Firmware F) : Prop where
  coherent : fw.motor.Coherent
  stopped : Faulty fw → ∀ w, fw.motor.duty w = 0

theorem inv_appInit (b : Board) : Inv (appInit b : Firmware F) where
  coherent := coherent_appInit b
  stopped _ := duty_appInit b

omit [CMath F] in
theorem Inv.withTelemetry {fw : Firmware F} (h : Inv fw) (telemetry : Telemetry) :
    Inv { fw with telemetry } := ⟨h.coherent, h.stopped⟩

theorem faulty_controlTask {fw : Firmware F} {nowMs : UInt32} :
    Faulty (controlTask nowMs fw) ↔ Faulty fw := by
  rw [Faulty, Faulty, fault_controlTask]

/-! ### The latch -/

/-- `System_Fault_Raise` with a code other than NONE leaves a fault active, -/
theorem faulty_faultRaise (fw : Firmware F) {code : SystemFaultCode} (hcode : code ≠ .none)
    (detail : UInt32) : Faulty (step fw (.faultRaise code detail)) :=
  isActive_systemFaultRaise_of_ne hcode detail fw.supervisor.fault fw.motor

/-- and from then on it stays active. -/
theorem faulty_exec {fw : Firmware F} (h : Faulty fw) (run : List (Event F)) :
    Faulty (exec step fw run) := by
  refine exec_invariant (I := Faulty) (fun fw e hfaulty => ?_) h run
  rcases control_or_frame fw e with ⟨nowMs, rfl⟩ | ⟨-, hframe⟩
  · exact faulty_controlTask.mpr hfaulty
  · exact hframe.faulty hfaulty

/-! ### Runs -/

section Step

variable {fw : Firmware F} (h : Inv fw)
include h

/-- A control iteration under a fault leaves the wheels stopped exactly if it demands
nothing. -/
theorem faultStops_control_iff (nowMs : UInt32) :
    FaultStops fw (.control nowMs) ↔ NoDemand fw (.control nowMs) := by
  have hduty := duty_controlTask_eq_zero nowMs h.coherent
  refine ⟨?_, ?_⟩
  · intro hstops hfaulty nowMs' hnow w
    cases hnow
    exact (hduty w).mp (hstops hfaulty ⟨nowMs, Or.inl rfl⟩ w)
  · intro hmodes hfaulty _ w
    exact (hduty w).mpr (hmodes hfaulty nowMs rfl w)

theorem faultStops_step_iff (e : Event F) : FaultStops fw e ↔ NoDemand fw e := by
  rcases control_or_frame fw e with ⟨nowMs, rfl⟩ | ⟨hother, hframe⟩
  · exact faultStops_control_iff h nowMs
  · -- any other step leaves stopped wheels stopped, and the condition is not about it
    refine ⟨?_, ?_⟩
    · intro _ _ nowMs hnow
      exact absurd hnow (hother nowMs)
    · intro _ hfaulty _
      exact hframe.stopped h.coherent (h.stopped hfaulty)

theorem inv_step {e : Event F} (hmodes : NoDemand fw e) : Inv (step fw e) := by
  refine ⟨coherent_step h.coherent e, fun hfaulty => ?_⟩
  rcases control_or_frame fw e with ⟨nowMs, rfl⟩ | ⟨-, hframe⟩
  · have hbefore : Faulty fw := faulty_controlTask.mp hfaulty
    exact (faultStops_control_iff h nowMs).mpr hmodes hbefore ⟨nowMs, Or.inl rfl⟩
  · -- a fault that was active found the wheels stopped, a new one stops them
    by_cases hbefore : Faulty fw
    · exact hframe.stopped h.coherent (h.stopped hbefore)
    · exact hframe.raised h.coherent hbefore hfaulty

end Step

/-- In any arithmetic, the wheels stay stopped exactly as long as nothing is demanded. -/
theorem faultStops_run_iff (b : Board) (run : List (Event F)) :
    EachStep step FaultStops (appInit b) run ↔ EachStep step NoDemand (appInit b) run :=
  eachStep_congr (fun _ _ h hmodes => inv_step h hmodes) (fun _ e h => faultStops_step_iff h e)
    (inv_appInit b)

theorem noDemand_of_modesOff (fw : Firmware F) (e : Event F) (h : ModesOff fw e) :
    NoDemand fw e := by
  intro hfaulty nowMs hnow w
  obtain ⟨hidle, htest⟩ := h hfaulty nowMs hnow
  exact (demand_nonpos_iff nowMs fw w).mpr ⟨fun hrun => absurd hrun hidle, fun _ => htest w⟩

/-- A fault is active at the end of every run in which one has been raised. -/
theorem faulty_of_raised (b : Board) {before since : List (Event F)} {code : SystemFaultCode}
    (hcode : code ≠ .none) (detail : UInt32) :
    Faulty (exec step (appInit b) (before ++ .faultRaise code detail :: since)) := by
  rw [exec_append, exec_cons]
  exact faulty_exec (faulty_faultRaise _ hcode detail) since

/-! ### Targets and pulses -/

section Exact

variable {fw : Firmware ℝ} (h : SameSetup fw.ctx.chassis carChassis)
include h

theorem speedDemand_nonpos_iff {nowMs : UInt32} (hrun : nextState fw = .run) (w : Wheel) :
    speedDemand (entered nowMs fw).ctx.chassis (entered nowMs fw).encoder w ≤ 0 ↔
      18.0 * (targetSpeed nowMs fw w - |((toInt32 (foundPulses fw w) : ℤ) : ℝ)|) < 1 := by
  have hsteering := (steering_controlTask_eq_entered nowMs fw).symm.trans
    (steering_controlTask nowMs fw)
  rw [if_pos hrun] at hsteering
  have hleft : (entered nowMs fw).ctx.chassis.targetSpeedLeft = targetSpeed nowMs fw .left :=
    congrArg Steering.targetLeft hsteering
  have hright : (entered nowMs fw).ctx.chassis.targetSpeedRight = targetSpeed nowMs fw .right :=
    congrArg Steering.targetRight hsteering
  have hgain : (18.0 : ℝ) = 18 := by norm_num
  rw [speedDemand_eq, pendingPulses_entered, ← foundPulses, hgain]
  exact wheelDemand_nonpos_iff ((setup_entered nowMs fw).trans h) hleft hright _ w

theorem noDemand_iff_noModeMoves (e : Event ℝ) : NoDemand fw e ↔ NoModeMoves fw e := by
  refine imp_congr_right fun _ => forall_congr' fun nowMs => imp_congr_right fun _ =>
    forall_congr' fun w => ?_
  rw [demand_nonpos_iff]
  exact and_congr_left' (imp_congr_right fun hrun => speedDemand_nonpos_iff h hrun w)

end Exact

theorem setup_appInit (b : Board) : SameSetup (appInit b : Firmware ℝ).ctx.chassis carChassis :=
  ⟨rfl, ⟨rfl, rfl, rfl, rfl, rfl⟩, ⟨rfl, rfl, rfl, rfl, rfl⟩, rfl, rfl⟩

/-- Over every run of the system. A fault that is raised stays active. Under it the
wheels stay stopped if no control iteration is in RUN or finds a live direct duty
test; and, in exact arithmetic, exactly if none finds a mode that moves a wheel. -/
theorem faultStops_iff (F : Type*) [CMath F] (b : Board) :
    (∀ run : List (Event F),
      (∀ before code detail since, run = before ++ .faultRaise code detail :: since →
        code ≠ .none → Faulty (exec step (appInit b) run)) ∧
      (EachStep step ModesOff (appInit b) run → EachStep step FaultStops (appInit b) run)) ∧
    ∀ run : List (Event ℝ),
      EachStep step FaultStops (appInit b) run ↔ EachStep step NoModeMoves (appInit b) run := by
  refine ⟨fun run => ⟨?_, fun hoff => ?_⟩, fun run => ?_⟩
  · rintro before code detail since rfl hcode
    exact faulty_of_raised b hcode detail
  · exact (faultStops_run_iff b run).mpr (hoff.mono noDemand_of_modesOff)
  · rw [faultStops_run_iff b run]
    exact eachStep_congr (I := fun fw : Firmware ℝ => SameSetup fw.ctx.chassis carChassis)
      (fun fw e h _ => (setup_step fw e).trans h)
      (fun _ e h => noDemand_iff_noModeMoves h e) (setup_appInit b)

/-- `$DUTY,300,300,800` after the fault of a failed IMU: the next control iteration
drives both wheels. -/
theorem drives_under_fault :
    ¬ EachStep step FaultStops (appInit Board.atReset : Firmware ℝ)
      (.faultRaise .imu 0 :: (dutyLine ++ [.control 10])) := by
  rintro ⟨-, hstops⟩
  have hinv : Inv (step (appInit Board.atReset : Firmware ℝ) (.faultRaise .imu 0)) :=
    inv_step (inv_appInit Board.atReset) fun _ _ hnow => by cases hnow
  have hfaulty : Faulty (step (appInit Board.atReset : Firmware ℝ) (.faultRaise .imu 0)) := rfl
  have hempty : (step (appInit Board.atReset : Firmware ℝ) (.faultRaise .imu 0)).telemetry =
      .initial := rfl
  generalize step (appInit Board.atReset : Firmware ℝ) (.faultRaise .imu 0) = raised
    at hstops hinv hfaulty hempty
  obtain ⟨-, hlast⟩ := eachStep_append.mp hstops
  rw [exec_dutyLine hempty] at hlast
  have hmodes := (faultStops_control_iff (hinv.withTelemetry _) 10).mp hlast.1
  have hlive : LiveTest 10 ⟨true, 300, 300, 810⟩ .left := ⟨rfl, by decide, by decide⟩
  refine ((demand_nonpos_iff 10 _ .left).mp (hmodes hfaulty 10 rfl .left)).2 ?_ hlive
  exact AppState.noConfusion

end NuedcFirmware.App.FaultStop
