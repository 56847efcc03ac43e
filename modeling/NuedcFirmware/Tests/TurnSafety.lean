import NuedcFirmware.Lib.Run
import NuedcFirmware.Tests.TurnDecision

/-!
Safety of the turn controller.

By what an iteration decides, it leaves the wheels stopped or turning the car on the spot
(`decision_cases`). What remains is what a fault does that is raised between two of its
motor calls (`runCalls`). Between the two commands of a turn it stops both wheels, and the
second command starts one of them again; anywhere else it does no harm. So a run is safe
exactly when no iteration is split in this way. The bounds of the duties are whole numbers,
and so they hold however the arithmetic rounds.
-/

namespace NuedcFirmware.Tests.TurnSafety

open NuedcFirmware.Lib NuedcFirmware.Platform NuedcFirmware.Modules NuedcFirmware.System

/-! ### Faults between motor calls -/

section Calls

variable {s : FaultManager × BspMotor} (h : s.2.Coherent) (raised : Option RaisedFault)
include h

theorem coherent_perform (call : MotorCall) : (call.perform s.2).Coherent := by
  cases call with
  | setSignedDuty ch duty => exact coherent_bspMotorSetSignedDuty h ch duty
  | brake ch => exact coherent_bspMotorBrake h ch

theorem coherent_raiseIf : (raiseIf raised s).2.Coherent := by
  cases raised with
  | none => exact h
  | some fault => exact coherent_bspMotorSetDuty (coherent_bspMotorSetDuty h 0 0) 1 0

theorem duty_raiseIf (w : Wheel) :
    (raiseIf raised s).2.duty w = if raised = none then s.2.duty w else 0 := by
  cases raised with
  | none => rfl
  | some fault =>
      show (bspMotorSetDuty 1 0 (bspMotorSetDuty 0 0 s.2)).duty w = 0
      rw [duty_bspMotorSetDuty (coherent_bspMotorSetDuty h 0 0), duty_bspMotorSetDuty h]
      cases w <;> rfl

theorem duty_perform_of_stops {call : MotorCall} (hstops : Stops call) (w : Wheel) :
    (call.perform s.2).duty w = if w = wheelOf call then 0 else s.2.duty w := by
  cases call with
  | setSignedDuty ch duty =>
      have hzero : duty = 0 := hstops
      rw [MotorCall.perform, duty_bspMotorSetSignedDuty h, hzero]
      rfl
  | brake ch => exact duty_bspMotorBrake ch w

omit h in
theorem gTickMs_raiseIf : (raiseIf raised s).2.board.gTickMs = s.2.board.gTickMs := by
  cases raised with
  | none => rfl
  | some fault =>
      show (bspMotorSetDuty 1 0 (bspMotorSetDuty 0 0 s.2)).board.gTickMs = s.2.board.gTickMs
      simp

omit h in
theorem gTickMs_perform (call : MotorCall) :
    (call.perform s.2).board.gTickMs = s.2.board.gTickMs := by
  cases call with
  | setSignedDuty ch duty => exact gTickMs_bspMotorSetSignedDuty ..
  | brake ch => exact gTickMs_bspMotorBrake ..

end Calls

theorem coherent_runCalls {s : FaultManager × BspMotor} (h : s.2.Coherent)
    (raised : ℕ → Option RaisedFault) (calls : List MotorCall) :
    (runCalls raised calls s).2.Coherent := by
  induction calls generalizing s raised with
  | nil => exact coherent_raiseIf h _
  | cons call calls ih => exact ih (coherent_perform (coherent_raiseIf h _) call) _

/-- Calls that stop, with whatever faults between them, stop the wheels they are about. -/
theorem duty_runCalls_of_stops {s : FaultManager × BspMotor} (h : s.2.Coherent)
    (raised : ℕ → Option RaisedFault) {calls : List MotorCall} (hstops : ∀ c ∈ calls, Stops c)
    {w : Wheel} (hw : s.2.duty w = 0 ∨ ∃ c ∈ calls, wheelOf c = w) :
    (runCalls raised calls s).2.duty w = 0 := by
  induction calls generalizing s raised with
  | nil =>
      have hzero : s.2.duty w = 0 := hw.resolve_right (by simp)
      rw [runCalls, duty_raiseIf h, hzero, ite_self]
  | cons call calls ih =>
      have hraised := coherent_raiseIf h (raised 0)
      have hrest : ∀ c ∈ calls, Stops c := fun c hc => hstops c (List.mem_cons_of_mem _ hc)
      refine ih (coherent_perform hraised call) _ hrest ?_
      have hduty := duty_perform_of_stops hraised (hstops call List.mem_cons_self) w
      by_cases hcall : w = wheelOf call
      · exact Or.inl (hduty.trans (if_pos hcall))
      · rcases hw with hzero | ⟨c, hc, rfl⟩
        · refine Or.inl (hduty.trans ((if_neg hcall).trans ?_))
          rw [duty_raiseIf h, hzero, ite_self]
        · rcases List.mem_cons.mp hc with rfl | hc
          · exact absurd rfl hcall
          · exact Or.inr ⟨c, hc, rfl⟩

/-- Calls in two parts. -/
theorem runCalls_append {s : FaultManager × BspMotor} (h : s.2.Coherent)
    (raised : ℕ → Option RaisedFault) (before calls : List MotorCall) :
    ∃ s' : FaultManager × BspMotor, s'.2.Coherent ∧ s'.2.board.gTickMs = s.2.board.gTickMs ∧
      runCalls raised (before ++ calls) s =
        runCalls (fun k => raised (k + before.length)) calls s' := by
  induction before generalizing s raised with
  | nil => exact ⟨s, h, rfl, rfl⟩
  | cons call before ih =>
      let next : FaultManager × BspMotor :=
        ((raiseIf (raised 0) s).1, call.perform (raiseIf (raised 0) s).2)
      have hnext : next.2.Coherent := coherent_perform (coherent_raiseIf h (raised 0)) call
      obtain ⟨s', hs', htick, hrun⟩ := ih hnext (fun k => raised (k + 1))
      refine ⟨s', hs', htick.trans ?_, hrun⟩
      exact (gTickMs_perform _).trans (gTickMs_raiseIf (raised 0))

section TurnPair

variable {s : FaultManager × BspMotor} (h : s.2.Coherent) (raised : ℕ → Option RaisedFault)
  (left right : ℤ)
include h

/-- The two commands, one by one. -/
theorem runCalls_turnPair :
    ∃ s₁ s₂ : FaultManager × BspMotor, s₁.2.Coherent ∧ s₂.2.Coherent ∧
      runCalls raised (turnPair left right) s = raiseIf (raised 2) s₂ ∧
      s₁.2 = bspMotorSetSignedDuty 0 left (raiseIf (raised 0) s).2 ∧
      s₂.2 = bspMotorSetSignedDuty 1 right (raiseIf (raised 1) s₁).2 := by
  let s₁ : FaultManager × BspMotor :=
    ((raiseIf (raised 0) s).1, bspMotorSetSignedDuty 0 left (raiseIf (raised 0) s).2)
  have h₁ : s₁.2.Coherent := coherent_bspMotorSetSignedDuty (coherent_raiseIf h _) 0 left
  let s₂ : FaultManager × BspMotor :=
    ((raiseIf (raised 1) s₁).1, bspMotorSetSignedDuty 1 right (raiseIf (raised 1) s₁).2)
  have h₂ : s₂.2.Coherent := coherent_bspMotorSetSignedDuty (coherent_raiseIf h₁ _) 1 right
  exact ⟨s₁, s₂, h₁, h₂, rfl, rfl, rfl⟩

/-- A fault after the second command stops both wheels, and one between the two stops the
left wheel alone. -/
theorem duty_runCalls_turnPair (hleft : |left| ≤ 1000) (hright : |right| ≤ 1000) :
    (runCalls raised (turnPair left right) s).2.duty .left =
        (if raised 2 = none then if raised 1 = none then left else 0 else 0) ∧
      (runCalls raised (turnPair left right) s).2.duty .right =
        if raised 2 = none then right else 0 := by
  obtain ⟨s₁, s₂, h₁, h₂, hrun, hs₁, hs₂⟩ := runCalls_turnPair h raised left right
  have hfirst : s₁.2.duty .left = left := by
    have hindex : Wheel.left = motorIndex 0 := rfl
    rw [hs₁, duty_bspMotorSetSignedDuty (coherent_raiseIf h _), if_pos hindex]
    rw [abs_le] at hleft
    omega
  have hsecond : ∀ w, s₂.2.duty w =
      if w = .right then right else if raised 1 = none then s₁.2.duty w else 0 := fun w => by
    rw [hs₂, duty_bspMotorSetSignedDuty (coherent_raiseIf h₁ _), duty_raiseIf h₁]
    rw [abs_le] at hright
    cases w with
    | left => rfl
    | right =>
        show max (-1000) (min right 1000) = right
        omega
  rw [hrun, duty_raiseIf h₂, duty_raiseIf h₂, hsecond, hsecond, hfirst]
  exact ⟨rfl, rfl⟩

/-- The second command is noted at the time of the iteration. -/
theorem lastCommandMs_runCalls_turnPair (hraised : raised 2 = none) :
    (runCalls raised (turnPair left right) s).2.lastCommandMs = s.2.board.gTickMs := by
  obtain ⟨s₁, s₂, -, -, hrun, hs₁, hs₂⟩ := runCalls_turnPair h raised left right
  rw [hrun, hraised, raiseIf, hs₂, lastCommandMs_bspMotorSetSignedDuty, gTickMs_raiseIf, hs₁,
    gTickMs_bspMotorSetSignedDuty, gTickMs_raiseIf]

end TurnPair

/-! ### The motors after an iteration -/

/-- A fault is raised between the two commands of a turn and none after them. -/
def SplitTurn (calls : List MotorCall) (raised : ℕ → Option RaisedFault) : Prop :=
  ∃ before left right, calls = before ++ turnPair left right ∧ right ≠ 0 ∧
    raised (before.length + 1) ≠ none ∧ raised (before.length + 2) = none

section Run

variable {s : FaultManager × BspMotor} (h : s.2.Coherent) (raised : ℕ → Option RaisedFault)
  (before : List MotorCall) {left right : ℤ} (hopposed : Opposed left right)

theorem Opposed.bounded (h : Opposed left right) : |left| ≤ 1000 ∧ |right| ≤ 1000 := by
  obtain ⟨pwm, hlo, hhi, ⟨rfl, rfl⟩ | ⟨rfl, rfl⟩⟩ := h <;>
    exact ⟨abs_le.mpr (by omega), abs_le.mpr (by omega)⟩

theorem Opposed.left_ne_zero (h : Opposed left right) : left ≠ 0 := by
  obtain ⟨pwm, hlo, hhi, ⟨rfl, rfl⟩ | ⟨rfl, rfl⟩⟩ := h <;> omega

theorem Opposed.right_ne_zero (h : Opposed left right) : right ≠ 0 := by
  obtain ⟨pwm, hlo, hhi, ⟨rfl, rfl⟩ | ⟨rfl, rfl⟩⟩ := h <;> omega

include h hopposed

/-- The duties that an iteration with a turn leaves. -/
theorem duty_runCalls_turn :
    (runCalls raised (before ++ turnPair left right) s).2.duty .left =
        (if raised (before.length + 2) = none then
          if raised (before.length + 1) = none then left else 0
        else 0) ∧
      (runCalls raised (before ++ turnPair left right) s).2.duty .right =
        if raised (before.length + 2) = none then right else 0 := by
  obtain ⟨s', hs', -, hrun⟩ := runCalls_append h raised before (turnPair left right)
  obtain ⟨hleft, hright⟩ := hopposed.bounded
  rw [hrun, Nat.add_comm before.length, Nat.add_comm before.length]
  exact duty_runCalls_turnPair hs' (fun k => raised (k + before.length)) left right hleft hright

omit hopposed in
theorem lastCommandMs_runCalls_turn (hraised : raised (before.length + 2) = none) :
    (runCalls raised (before ++ turnPair left right) s).2.lastCommandMs = s.2.board.gTickMs := by
  obtain ⟨s', hs', htick, hrun⟩ := runCalls_append h raised before (turnPair left right)
  rw [Nat.add_comm] at hraised
  rw [hrun, lastCommandMs_runCalls_turnPair hs' _ left right hraised, htick]

end Run

/-! ### Runs -/

section Statements

variable {F : Type*}

/-- The wheels stand still in the fault state. -/
def FaultStops (s : TurnSystem F) : Prop := s.task.state = .fault → ∀ w, s.motor.duty w = 0

variable [CFloat F]

/-- A wheel that is driven at the end of an iteration turns the car in a state, a phase and
a segment that allow it, and every test of the iteration was passed. -/
def SafeIteration (build : TurnBuild F) (s : TurnSystem F) : TurnEvent F → Prop
  | .control i =>
      let s' := controlTask build i s
      (∃ w, s'.motor.duty w ≠ 0) →
        s'.task.state.isTurning = true ∧ (s'.task.phase = .coarse ∨ s'.task.phase = .finePulse) ∧
        systemFaultIsActive s.supervisor.fault = false ∧ ImuReady i.imu ∧
        i.now - s'.task.segmentStartedMs ≤ build.turnTimeoutMs ∧
        Opposed (s'.motor.duty .left) (s'.motor.duty .right)
  | .faultRaise _ _ => True

/-- Once the state is the fault state it stays so, with both duties 0. -/
def StaysInFault (build : TurnBuild F) (s : TurnSystem F) (run : List (TurnEvent F)) : Prop :=
  ∀ before since, run = before ++ since → (exec (step build) s before).task.state = .fault →
    EachState (step build) (fun s => s.task.state = .fault ∧ ∀ w, s.motor.duty w = 0)
      (exec (step build) s before) since

/-- No fault is raised between the two commands by which an iteration turns the car, unless
another one follows in the same iteration. -/
def Unsplit (build : TurnBuild F) (s : TurnSystem F) : TurnEvent F → Prop
  | .control i => ¬ SplitTurn (decision build i s).calls i.raised
  | .faultRaise _ _ => True

/-- What every event keeps. -/
structure Inv (s : TurnSystem F) : Prop where
  coherent : s.motor.Coherent
  fine : FineRange s.task
  stops : FaultStops s

/-- The motor module when the calls of an iteration have been made. -/
def afterCalls (build : TurnBuild F) (i : TurnInput F) (s : TurnSystem F) : BspMotor :=
  (runCalls i.raised (decision build i s).calls
    (s.supervisor.fault, { s.motor with board := { s.motor.board with gTickMs := i.now } })).2

end Statements

section Iteration

variable {F : Type*} [CFloat F] {build : TurnBuild F} {s : TurnSystem F} (h : Inv s)
  (i : TurnInput F)

theorem task_controlTask : (controlTask build i s).task = (decision build i s).task := by
  rw [controlTask]

theorem motor_controlTask :
    (controlTask build i s).motor = bspMotorSafetyTick i.now (afterCalls build i s) := by
  rw [controlTask, afterCalls]

include h

omit [CFloat F] in
theorem coherent_at :
    BspMotor.Coherent { s.motor with board := { s.motor.board with gTickMs := i.now } } :=
  ⟨h.coherent.config, h.coherent.silent⟩

theorem coherent_afterCalls : (afterCalls build i s).Coherent :=
  coherent_runCalls (coherent_at h i) i.raised _

/-- The safety tick stops the wheels or leaves them. -/
theorem duty_controlTask :
    (∀ w, (controlTask build i s).motor.duty w = 0) ∨
      (controlTask build i s).motor = afterCalls build i s := by
  rw [motor_controlTask]
  exact (bspMotorSafetyTick_cases (coherent_afterCalls h i) i.now).imp And.left And.left

theorem duty_controlTask_of_allStop (hstop : AllStop (decision build i s).calls) (w : Wheel) :
    (controlTask build i s).motor.duty w = 0 := by
  have hzero : (afterCalls build i s).duty w = 0 :=
    duty_runCalls_of_stops (coherent_at h i) i.raised hstop.stops (Or.inr (hstop.both w))
  rcases duty_controlTask h i with hall | hsame
  · exact hall w
  · rw [hsame, hzero]

/-- The safety tick of an iteration that turns finds commands of this iteration. -/
theorem motor_controlTask_of_turn {before : List MotorCall} {left right : ℤ}
    (hcalls : (decision build i s).calls = before ++ turnPair left right)
    (hraised : i.raised (before.length + 2) = none) :
    (controlTask build i s).motor = afterCalls build i s := by
  have hcommand : (afterCalls build i s).lastCommandMs = i.now := by
    rw [afterCalls, hcalls]
    exact lastCommandMs_runCalls_turn (coherent_at h i) i.raised before hraised
  rw [motor_controlTask]
  rcases bspMotorSafetyTick_cases (coherent_afterCalls h i) i.now with ⟨-, -, hlate⟩ | ⟨hsame, -⟩
  · rw [hcommand, UInt32.sub_self] at hlate
    exact absurd hlate (by decide)
  · exact hsame

/-- The duties after an iteration with a turn. -/
theorem duty_controlTask_of_turn {before : List MotorCall} {left right : ℤ}
    (hcalls : (decision build i s).calls = before ++ turnPair left right)
    (hopposed : Opposed left right) :
    (controlTask build i s).motor.duty .left =
        (if i.raised (before.length + 2) = none then
          if i.raised (before.length + 1) = none then left else 0
        else 0) ∧
      (controlTask build i s).motor.duty .right =
        if i.raised (before.length + 2) = none then right else 0 := by
  have hduties := duty_runCalls_turn (s := (s.supervisor.fault, _)) (coherent_at h i) i.raised
    before hopposed
  rw [← hcalls, ← afterCalls] at hduties
  by_cases hraised : i.raised (before.length + 2) = none
  · rw [motor_controlTask_of_turn h i hcalls hraised]
    exact hduties
  · simp only [if_neg hraised] at hduties ⊢
    rcases duty_controlTask h i with hzero | hsame
    · exact ⟨hzero _, hzero _⟩
    · rw [hsame]
      exact hduties

theorem inv_controlTask [CFloat.WholeOrder F] : Inv (controlTask build i s) := by
  obtain ⟨hcases, hfine⟩ := decision_cases build i h.fine
  refine ⟨?_, ?_, fun hfault => ?_⟩
  · rw [motor_controlTask]
    exact coherent_bspMotorSafetyTick (coherent_afterCalls h i) i.now
  · rw [task_controlTask]
    exact hfine
  · rw [task_controlTask] at hfault
    rcases hcases with hstop | hdrives
    · exact duty_controlTask_of_allStop h i hstop
    · exact absurd hfault hdrives.turns.state_ne_fault

/-- An iteration is safe if and only if no fault comes between the two commands of its turn. -/
theorem safeIteration_iff [CFloat.WholeOrder F] :
    SafeIteration build s (.control i) ↔ Unsplit build s (.control i) := by
  obtain ⟨hstop | hdrives, -⟩ := decision_cases build i h.fine
  · refine iff_of_true (fun ⟨w, hw⟩ => absurd (duty_controlTask_of_allStop h i hstop w) hw) ?_
    rintro ⟨before, left, right, hcalls, hright, -⟩
    have hmem : MotorCall.setSignedDuty 1 right ∈ (decision build i s).calls := by
      rw [hcalls]
      simp [turnPair]
    exact hright (hstop.stops _ hmem)
  · obtain ⟨hstate, hphase, before, left, right, hcalls, -, hopposed⟩ := hdrives.turns
    refine ⟨?_, fun hunsplit hduty => ?_⟩
    · -- a split turn leaves the right wheel driven alone
      rintro hsafe ⟨before', left', right', hcalls', -, hbetween, hafter⟩
      obtain ⟨rfl, hpair⟩ := List.append_inj' (hcalls'.symm.trans hcalls) rfl
      obtain ⟨-, rfl⟩ : left' = left ∧ right' = right := by simpa [turnPair] using hpair
      obtain ⟨hleft, hright⟩ := duty_controlTask_of_turn h i hcalls hopposed
      rw [if_pos hafter, if_neg hbetween] at hleft
      rw [if_pos hafter] at hright
      obtain ⟨-, -, -, -, -, hsplit⟩ := hsafe ⟨.right, by rw [hright]; exact hopposed.right_ne_zero⟩
      rw [hleft] at hsplit
      exact hsplit.left_ne_zero rfl
    · refine ⟨hstate, hphase, hdrives.noFault, hdrives.imu, hdrives.elapsed, ?_⟩
      obtain ⟨w, hw⟩ := hduty
      obtain ⟨hleft, hright⟩ := duty_controlTask_of_turn h i hcalls hopposed
      by_cases hafter : i.raised (before.length + 2) = none
      · have hbetween : i.raised (before.length + 1) = none := by
          by_contra hraised
          exact hunsplit ⟨before, left, right, hcalls, hopposed.right_ne_zero, hraised, hafter⟩
        rw [hleft, hright, if_pos hafter, if_pos hafter, if_pos hbetween]
        exact hopposed
      · rw [if_neg hafter] at hleft hright
        cases w with
        | left => exact absurd hleft hw
        | right => exact absurd hright hw

end Iteration

section Whole

variable {F : Type*} [CFloat F] (build : TurnBuild F)

theorem inv_step [CFloat.WholeOrder F] (s : TurnSystem F) (e : TurnEvent F) (h : Inv s) :
    Inv (step build s e) := by
  cases e with
  | control i => exact inv_controlTask h i
  | faultRaise code detail =>
      have hduty : ∀ w, (step build s (.faultRaise code detail)).motor.duty w = 0 := fun w =>
        (duty_raiseIf (s := (s.supervisor.fault, s.motor)) h.coherent (some (code, detail)) w)
      exact ⟨coherent_raiseIf (s := (s.supervisor.fault, s.motor)) h.coherent (some (code, detail)),
        h.fine, fun _ => hduty⟩

theorem fineRange_initial : FineRange (ControlTask.initial : ControlTask F) := by
  have hinitial : 140 ≤ turnFinePwmInitial ∧ turnFinePwmInitial ≤ 260 := by decide
  exact hinitial

theorem inv_start (b : Board) : Inv (start b : TurnSystem F) where
  coherent := coherent_bspMotorInit b
  fine := fineRange_initial
  stops hfault := by cases hfault

/-- Nothing leads out of the fault state. -/
theorem fault_step {s : TurnSystem F} (e : TurnEvent F) (h : s.task.state = .fault) :
    (step build s e).task.state = .fault := by
  cases e with
  | control i => exact decision_of_fault build i h
  | faultRaise code detail => exact h

theorem staysInFault [CFloat.WholeOrder F] {s : TurnSystem F} (h : Inv s)
    (run : List (TurnEvent F)) : StaysInFault build s run := by
  rintro before since rfl hfault pre post rfl
  have hinv := exec_invariant (inv_step build) h (before ++ pre)
  rw [exec_append] at hinv
  have hstays : (exec (step build) (exec (step build) s before) pre).task.state = .fault :=
    exec_invariant (I := fun s : TurnSystem F => s.task.state = .fault)
      (fun _ e => fault_step build e) hfault pre
  exact ⟨hstays, hinv.stops hstays⟩

/-- In both builds and for every run from the start, however the arithmetic rounds: every
iteration is safe and the fault state is kept with the wheels at rest, if and only if no fault
is raised between the two commands of a turn. -/
theorem safe_iff [CFloat.WholeOrder F] (b : Board) (run : List (TurnEvent F)) :
    EachStep (step build) (SafeIteration build) (start b) run ∧
        StaysInFault build (start b) run ↔
      EachStep (step build) (Unsplit build) (start b) run := by
  rw [and_iff_left (staysInFault build (inv_start b) run)]
  refine eachStep_congr (I := Inv) (fun s e h _ => inv_step build s e h) ?_ (inv_start b)
  rintro s (i | ⟨code, detail⟩) h
  · exact safeIteration_iff h i
  · exact Iff.rfl

end Whole

/-! ### A held button -/

section Held

variable {F : Type*} [CFloat F]

/-- A snapshot by which the car may turn. -/
def readyImu : ImuSnapshot F :=
  { sequence := 0, timestampMs := 0, accelG := (0.0, 0.0, 1.0), gyroDps := (0.0, 0.0, 0.0)
    temperatureC := 25.0, pitchDeg := 0.0, rollDeg := 0.0, yawDeg := 0.0, gyroBiasZDps := 0.0
    gyroScaleZ := 1.0, status := 0, state := .ready, yawCalState := .idle, stationary := true
    ready := true }

/-- The button for the clockwise turn is held. -/
def holdCw (now : UInt32) (raised : ℕ → Option RaisedFault) : TurnInput F where
  now := now
  imu := readyImu
  cw := true
  ccw := false
  sequence := false
  raised := raised

/-- The button is held for three iterations, with what is raised in the third one. -/
def holdThrice (raised : ℕ → Option RaisedFault) : List (TurnEvent F) :=
  [.control (holdCw 3010 fun _ => none), .control (holdCw 3020 fun _ => none),
    .control (holdCw 3030 raised)]

end Held

/-- Undisturbed, the car turns clockwise after the three iterations, and that is safe. -/
theorem safe_holdThrice_undisturbed :
    let s : TurnSystem Single := start Board.atReset
    let run := holdThrice fun _ => none
    ((exec (step turnTest) s run).motor.duty .left = 300 ∧
      (exec (step turnTest) s run).motor.duty .right = -300) ∧
    EachStep (step turnTest) (SafeIteration turnTest) s run ∧ StaysInFault turnTest s run := by
  refine ⟨by decide +kernel, (safe_iff turnTest Board.atReset _).mpr ⟨?_, ?_, ?_, trivial⟩⟩
  all_goals exact fun ⟨_, _, _, _, _, hbetween, _⟩ => hbetween rfl

/-- The variables while the button is debounced. -/
noncomputable def heldFor (samples : ℕ) : ControlTask ℝ :=
  { ControlTask.initial with candidate := .cw, stableSamples := samples, state := .idle }

theorem absFloat_eq_abs (x : ℝ) : absFloat x = |x| := by
  rw [absFloat]
  norm_num
  split_ifs with h
  · exact (abs_of_neg h).symm
  · exact (abs_of_nonneg (not_lt.mp h)).symm

section Start

variable (now : UInt32) (raised : ℕ → Option RaisedFault) {s : TurnSystem ℝ} {task : ControlTask ℝ}

theorem fault_runCalls_quiet (calls : List MotorCall) (s : FaultManager × BspMotor) :
    (runCalls (fun _ => none) calls s).1 = s.1 := by
  induction calls generalizing s with
  | nil => rfl
  | cons call calls ih => exact ih _

theorem checkFaults_readyImu :
    checkFaults false readyImu task =
      if task.state = .waitImu then { task with state := .idle } else task := by
  simp [checkFaults, readyImu]

theorem decision_holdCw (hfault : systemFaultIsActive s.supervisor.fault = false)
    {pressed : ButtonCommand} (hdebounce : debounce .cw s.task = (pressed, task)) :
    decision turnTest (holdCw now raised) s =
      drive turnTest now readyImu (startTurn turnTest now readyImu pressed
        (if task.state = .waitImu then { task with state := .idle } else task)) := by
  have hbuttons : readButtons true false false = .cw := by decide
  rw [decision, holdCw, hbuttons, hdebounce, hfault, ← checkFaults_readyImu]

/-- Nothing happens while the button is debounced. -/
theorem task_drive_heldFor (samples : ℕ) :
    (drive turnTest now readyImu (startTurn turnTest now readyImu .none (heldFor samples))).task =
      heldFor samples := by
  simp [startTurn, drive, heldFor, TurnState.isTurning]

theorem fault_controlTask_quiet :
    (controlTask turnTest (holdCw now fun _ => none) s).supervisor.fault = s.supervisor.fault := by
  rw [controlTask]
  exact fault_runCalls_quiet ..

theorem decision_first (hfault : systemFaultIsActive s.supervisor.fault = false)
    (htask : s.task = .initial) : (decision turnTest (holdCw now raised) s).task = heldFor 1 := by
  have hdebounce : debounce .cw s.task =
      (.none, { ControlTask.initial with candidate := .cw, stableSamples := 1 }) := by
    rw [htask]
    rfl
  rw [decision_holdCw now raised hfault hdebounce]
  exact task_drive_heldFor now 1

theorem decision_second (hfault : systemFaultIsActive s.supervisor.fault = false)
    (htask : s.task = heldFor 1) : (decision turnTest (holdCw now raised) s).task = heldFor 2 := by
  have hdebounce : debounce .cw s.task = (.none, heldFor 2) := by
    rw [htask]
    rfl
  rw [decision_holdCw now raised hfault hdebounce]
  exact task_drive_heldFor now 2

theorem coarsePhase_clockwise (h : task.expectedDirection = -1) :
    coarsePhase now (-90.0 : ℝ) task =
      { task, errorDeg := -90.0, pwm := turnPwm (-90.0 : ℝ),
        calls := applyTurn (-90.0 : ℝ) (turnPwm (-90.0 : ℝ)) } := by
  have hfar : ¬ (absFloat (-90.0 : ℝ) ≤ turnFineEntryDeg ∨ (-90.0 : ℝ) * ((-1 : ℤ) : ℝ) ≤ 0.0) := by
    rw [absFloat_eq_abs]
    norm_num [turnFineEntryDeg]
  rw [coarsePhase, h, if_neg hfar]

/-- With the third sample the turn begins. -/
theorem calls_third (hfault : systemFaultIsActive s.supervisor.fault = false)
    (htask : s.task = heldFor 2) :
    ∃ left right, (decision turnTest (holdCw now raised) s).calls = turnPair left right ∧
      Opposed left right := by
  have hdebounce : debounce .cw s.task = (.cw, { heldFor 3 with stable := .cw }) := by
    rw [htask]
    rfl
  have hcalls : (decision turnTest (holdCw now raised) s).calls =
      applyTurn (-90.0 : ℝ) (turnPwm (-90.0 : ℝ)) := by
    rw [decision_holdCw now raised hfault hdebounce]
    simp only [startTurn, heldFor, readyImu, drive, TurnState.isTurning, turn,
      turnTest, turnDirectionCheckMs]
    simp [coarsePhase_clockwise]
  have hpwm := turnPwm_mem (-90.0 : ℝ)
  rw [hcalls]
  exact applyTurn_eq (-90.0 : ℝ) hpwm.1 hpwm.2

end Start

/-! ### A fault between the two commands -/

/-- A stale task is found when the left wheel has been commanded. -/
def staleBetween : ℕ → Option RaisedFault := fun k => if k = 1 then some (.taskStale, 1) else none

/-- The variables are `task`, and no fault has been raised. -/
structure Quiet (task : ControlTask ℝ) (s : TurnSystem ℝ) : Prop where
  inv : Inv s
  fault : systemFaultIsActive s.supervisor.fault = false
  task : s.task = task

theorem Quiet.controlTask {task task' : ControlTask ℝ} {s : TurnSystem ℝ} (h : Quiet task s)
    (now : UInt32) (hdecision : (decision turnTest (holdCw now fun _ => none) s).task = task') :
    Quiet task' (controlTask turnTest (holdCw now fun _ => none) s) where
  inv := inv_controlTask h.inv _
  fault := (congrArg systemFaultIsActive (fault_controlTask_quiet now)).trans h.fault
  task := (task_controlTask _).trans hdecision

theorem quiet_start : Quiet .initial (start Board.atReset) := ⟨inv_start _, rfl, rfl⟩

theorem not_safe_holdThrice :
    let s : TurnSystem ℝ := start Board.atReset
    ¬ (EachStep (step turnTest) (SafeIteration turnTest) s (holdThrice staleBetween) ∧
      StaysInFault turnTest s (holdThrice staleBetween)) := by
  rintro s ⟨⟨-, -, hsafe, -⟩, -⟩
  have hfirst := quiet_start.controlTask 3010 (decision_first 3010 _ rfl rfl)
  have hsecond := hfirst.controlTask 3020 (decision_second 3020 _ hfirst.fault hfirst.task)
  obtain ⟨left, right, hcalls, hopposed⟩ := calls_third 3030 staleBetween hsecond.fault hsecond.task
  exact (safeIteration_iff hsecond.inv _).mp hsafe
    ⟨[], left, right, hcalls, hopposed.right_ne_zero, by decide, by decide⟩

end NuedcFirmware.Tests.TurnSafety
