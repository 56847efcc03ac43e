import NuedcFirmware.Lib.Latch
import NuedcFirmware.Tests.StraightSafety

/-!
The line tests of a straight run.

The run is begun with the centre channel on the start line. The line counts as left when the
channel has shown another level five iterations in a row, and line B as found when after that
some channel has shown the level of the start line in five armed iterations in a row. One
counter serves both tests. What the display shows at the end of a run is just that
(`line_tests`).
-/

namespace NuedcFirmware.Tests.Straight

open NuedcFirmware.Lib NuedcFirmware.Platform NuedcFirmware.Modules NuedcFirmware.System

variable {F : Type*} [CFloat F]

/-- An iteration starts a run. -/
def StartsRun (i : StraightInput F) (s : StraightSystem F) : Prop :=
  startsRun (reading i s) (checkFault (reading i s) (buttonRead s)) = true

/-- A step within a run: an iteration without button, fault or timeout, which may find the
targets reached. -/
def Continues (s : StraightSystem F) : StraightEvent F → Prop
  | .control i => s.task.state = .running ∧ (reading i s).pressed = false ∧
      systemFaultIsActive s.shared.supervisor.fault = false ∧
      i.now - s.task.runStartedMs ≤ runTimeoutMs
  | .interruption _ => True

/-- The centre channel is off the start line. -/
def OffLine (s : StraightSystem F) : StraightEvent F → Prop
  | .control i => (reading i s).centerLevel ≠ s.task.startBlackLevel
  | .interruption _ => False

/-- No iteration with the centre channel on the start line. -/
def StaysOff (s : StraightSystem F) : StraightEvent F → Prop
  | .control i => (reading i s).centerLevel ≠ s.task.startBlackLevel
  | .interruption _ => True

/-- The run is old enough for line B. -/
def Armed (i : StraightInput F) (s : StraightSystem F) : Prop :=
  finishArmMs ≤ i.now - s.task.runStartedMs

/-- Some channel shows the level of the start line, in an armed iteration. -/
def OnLine (s : StraightSystem F) : StraightEvent F → Prop
  | .control i => Armed i s ∧ (reading i s).lineDetected s.task.startBlackLevel = true
  | .interruption _ => False

/-- No armed iteration without a line. -/
def StaysOn (s : StraightSystem F) : StraightEvent F → Prop
  | .control i => Armed i s → (reading i s).lineDetected s.task.startBlackLevel = true
  | .interruption _ => True

instance (s : StraightSystem F) (e : StraightEvent F) : Decidable (OffLine s e) :=
  match e with
  | .control i => inferInstanceAs (Decidable ((reading i s).centerLevel ≠ s.task.startBlackLevel))
  | .interruption _ => inferInstanceAs (Decidable False)

instance (i : StraightInput F) (s : StraightSystem F) : Decidable (Armed i s) :=
  inferInstanceAs (Decidable (finishArmMs ≤ i.now - s.task.runStartedMs))

instance (s : StraightSystem F) (e : StraightEvent F) : Decidable (OnLine s e) :=
  match e with
  | .control i =>
      inferInstanceAs
        (Decidable (Armed i s ∧ (reading i s).lineDetected s.task.startBlackLevel = true))
  | .interruption _ => inferInstanceAs (Decidable False)

instance (s : StraightSystem F) (e : StraightEvent F) : Decidable (Continues s e) :=
  match e with
  | .control i =>
      inferInstanceAs (Decidable (s.task.state = .running ∧ (reading i s).pressed = false ∧
        systemFaultIsActive s.shared.supervisor.fault = false ∧
        i.now - s.task.runStartedMs ≤ runTimeoutMs))
  | .interruption _ => inferInstanceAs (Decidable True)

/-- Bit 1 of the status: line B has been found. -/
def FoundB (s : StraightSystem F) : Prop := s.task.faultStatus &&& 2 ≠ 0

/-- The start line has been left. -/
def LeftLine (s : StraightSystem F) : Prop := s.task.leftStartLine = true

/-! ### The status word -/

theorem or_one_and_two (status : Int32) : (status ||| 1) &&& 2 = status &&& 2 := by
  apply Int32.toBitVec_inj.mp
  show (status.toBitVec ||| 1#32) &&& 2#32 = status.toBitVec &&& 2#32
  have hbits : 1#32 &&& 2#32 = 0#32 := by decide
  rw [BitVec.and_or_distrib_right, hbits, BitVec.or_zero]

theorem or_two_and_two_ne (status : Int32) : (status ||| 2) &&& 2 ≠ 0 := by
  intro h
  have hbit := congrArg (fun word => word.toBitVec.getLsbD 1) h
  simp at hbit

/-! ### One iteration -/

section Iteration

variable {i : StraightInput F} {s : StraightSystem F}

/-- What the motor part of a run leaves of the variables of the line tests. -/
theorem run_line (r : Reading F) (leftTotal rightTotal : ℤ) (task : StraightTask F)
    (hintime : r.now - task.runStartedMs ≤ runTimeoutMs) :
    (run r leftTotal rightTotal task).task.leftStartLine = task.leftStartLine ∧
      (run r leftTotal rightTotal task).task.lineStableSamples = task.lineStableSamples ∧
      (run r leftTotal rightTotal task).task.faultStatus &&& 2 = task.faultStatus &&& 2 ∧
      (run r leftTotal rightTotal task).task.runStartedMs = task.runStartedMs ∧
      (run r leftTotal rightTotal task).task.startBlackLevel = task.startBlackLevel := by
  rw [run]
  dsimp only
  rw [if_neg (UInt32.not_lt.mpr hintime)]
  split_ifs
  · exact ⟨rfl, rfl, or_one_and_two _, rfl, rfl⟩
  · exact ⟨rfl, rfl, rfl, rfl, rfl⟩

/-- The variables when a run has been started. -/
def startedTask (i : StraightInput F) (s : StraightSystem F) : StraightTask F :=
  { buttonRead s with
    yawReference := i.imu.yawDeg
    runStartedMs := i.now
    faultStatus := 0
    startBlackLevel := (reading i s).centerLevel
    leftStartLine := false
    lineStableSamples := 0
    state := .running }

theorem checkFault_of_noFault (h : systemFaultIsActive s.shared.supervisor.fault = false) :
    checkFault (reading i s) (buttonRead s) = buttonRead s := by
  rw [checkFault, if_neg]
  rw [Bool.not_eq_true]
  exact h

/-- With a fault no run is started or ended. -/
theorem noFault_of_pressed (h : startsRun (reading i s) (checkFault (reading i s) (buttonRead s)) ||
    endsRun (reading i s) (checkFault (reading i s) (buttonRead s)) = true) :
    systemFaultIsActive s.shared.supervisor.fault = false := by
  rw [Bool.eq_false_iff]
  intro hactive
  have hfault : (checkFault (reading i s) (buttonRead s)).state = .fault := by
    rw [state_checkFault]
    exact if_pos hactive
  obtain ⟨hstart, hend⟩ := not_pressed_of_fault (r := reading i s) hfault
  rw [hstart, hend] at h
  cases h

/-- The iteration that starts a run. The centre channel has the level of the start line. -/
theorem updateState_of_startsRun (h : StartsRun i s) :
    updateState (reading i s) (buttonRead s) = startedTask i s := by
  have hstart : startsRun (reading i s) (checkFault (reading i s) (buttonRead s)) = true := h
  have hnoFault := noFault_of_pressed (by rw [hstart, Bool.true_or])
  have hpressed : pressButton (reading i s) (checkFault (reading i s) (buttonRead s)) =
      startedTask i s := by
    rw [pressButton, if_pos hstart, checkFault_of_noFault hnoFault]
    rfl
  have hwatched : watchLine (reading i s) (startedTask i s) = startedTask i s := by
    simp [watchLine, startedTask]
  rw [updateState, hpressed]
  exact (if_pos rfl).trans hwatched

/-- An iteration of a run that finds the button not pressed. -/
theorem updateState_of_running (hrunning : s.task.state = .running)
    (hpressed : (reading i s).pressed = false)
    (hnoFault : systemFaultIsActive s.shared.supervisor.fault = false) :
    updateState (reading i s) (buttonRead s) = watchLine (reading i s) (buttonRead s) := by
  have hstart : startsRun (reading i s) (buttonRead s) = false := by
    rw [startsRun, hpressed, Bool.false_and]
  have hend : endsRun (reading i s) (buttonRead s) = false := by
    rw [endsRun, hpressed, Bool.false_and]
  have hkept : pressButton (reading i s) (buttonRead s) = buttonRead s := by
    rw [pressButton, hstart, hend]
    rfl
  have hstate : (buttonRead s).state = .running := hrunning
  rw [updateState, checkFault_of_noFault hnoFault, hkept, if_pos hstate]

/-- The motor part of an iteration that finds the car running. -/
theorem task_of_running (h : (updateState (reading i s) (buttonRead s)).state = .running) :
    (controlTask i s).task =
      (run (reading i s) (totalRead i s .left) (totalRead i s .right)
        (updateState (reading i s) (buttonRead s))).task := by
  rw [task_controlTask, motorPart, drive, task_stopOnFault, h]

/-- An iteration within a run makes the line tests. -/
theorem task_of_continues (h : Continues s (.control i)) :
    (controlTask i s).task =
      (run (reading i s) (totalRead i s .left) (totalRead i s .right)
        (watchLine (reading i s) (buttonRead s))).task := by
  obtain ⟨hrunning, hpressed, hnoFault, -⟩ := h
  have hupdate := updateState_of_running hrunning hpressed hnoFault
  have hstate : (buttonRead s).state = .running := hrunning
  rw [task_of_running (by rw [hupdate, state_watchLine, hstate]), hupdate]

/-- The variables of the line tests after an iteration within a run. -/
theorem line_of_continues (h : Continues s (.control i)) :
    (controlTask i s).task.leftStartLine = (watchLine (reading i s) s.task).leftStartLine ∧
      (controlTask i s).task.lineStableSamples = (watchLine (reading i s) s.task).lineStableSamples ∧
      (controlTask i s).task.faultStatus &&& 2 =
        (watchLine (reading i s) s.task).faultStatus &&& 2 := by
  have hbutton : (watchLine (reading i s) (buttonRead s)).leftStartLine =
        (watchLine (reading i s) s.task).leftStartLine ∧
      (watchLine (reading i s) (buttonRead s)).lineStableSamples =
        (watchLine (reading i s) s.task).lineStableSamples ∧
      (watchLine (reading i s) (buttonRead s)).faultStatus =
        (watchLine (reading i s) s.task).faultStatus ∧
      (watchLine (reading i s) (buttonRead s)).runStartedMs = s.task.runStartedMs := by
    rw [watchLine, watchLine, buttonRead]
    dsimp only
    split_ifs <;> exact ⟨rfl, rfl, rfl, rfl⟩
  obtain ⟨hleft, hcount, hstatus, hstarted⟩ := hbutton
  have hintime : (reading i s).now - (watchLine (reading i s) (buttonRead s)).runStartedMs ≤
      runTimeoutMs := by
    rw [hstarted]
    exact h.2.2.2
  obtain ⟨hrunLeft, hrunCount, hrunStatus, -⟩ := run_line (reading i s) (totalRead i s .left)
    (totalRead i s .right) (watchLine (reading i s) (buttonRead s)) hintime
  rw [task_of_continues h, hrunLeft, hrunCount, hrunStatus, hleft, hcount, hstatus]
  exact ⟨rfl, rfl, rfl⟩

end Iteration

/-! ### The two tests as flags -/

/-- Leaving the start line. -/
theorem leftLine_latches (s : StraightSystem F) (e : StraightEvent F) (h : Continues s e) :
    Latches (StaysOff s e) (OffLine s e) lineStableLimit (LeftLine s) (LeftLine (step s e))
      s.task.lineStableSamples (step s e).task.lineStableSamples := by
  cases e with
  | interruption e =>
      exact ⟨id, fun _ h => absurd trivial h, fun hs _ _ => ⟨hs, rfl⟩, fun _ _ h => h.elim,
        fun _ _ h => h.elim⟩
  | control i =>
      obtain ⟨hleft, hcount, -⟩ := line_of_continues h
      have hflag : LeftLine (step s (.control i)) ↔
          (watchLine (reading i s) s.task).leftStartLine = true := by
        rw [LeftLine, step, hleft]
      have hnot : ¬ LeftLine s → s.task.leftStartLine = false := fun h => Bool.not_eq_true _ ▸ h
      rw [hflag, step, hcount, watchLine]
      constructor
      case keep =>
        intro hset
        have hset' : s.task.leftStartLine = true := hset
        rw [hset']
        split_ifs <;> simp_all
      case reset =>
        intro hs hon
        have hon' : ¬ (reading i s).centerLevel ≠ s.task.startBlackLevel := hon
        simp [hnot hs, hon']
      case skip => exact fun _ hoff hnone => absurd hoff hnone
      case raise =>
        intro hs _ hoff hlt
        have hoff' : (reading i s).centerLevel ≠ s.task.startBlackLevel := hoff
        have hshort : ¬ s.task.lineStableSamples + 1 ≥ lineStableLimit := Nat.not_le.mpr hlt
        simp [hnot hs, hoff', hshort]
      case set =>
        intro hs _ hoff hle
        have hoff' : (reading i s).centerLevel ≠ s.task.startBlackLevel := hoff
        have hlong : s.task.lineStableSamples + 1 ≥ lineStableLimit := hle
        simp [hnot hs, hoff', hlong]

/-- Finding line B. -/
theorem foundB_latches (s : StraightSystem F) (e : StraightEvent F) (h : Continues s e)
    (hleft : LeftLine s) :
    Latches (StaysOn s e) (OnLine s e) lineStableLimit (FoundB s) (FoundB (step s e))
      s.task.lineStableSamples (step s e).task.lineStableSamples := by
  cases e with
  | interruption e =>
      exact ⟨id, fun _ h => absurd trivial h, fun hs _ _ => ⟨hs, rfl⟩, fun _ _ h => h.elim,
        fun _ _ h => h.elim⟩
  | control i =>
      obtain ⟨-, hcount, hstatus⟩ := line_of_continues h
      have hflag : FoundB (step s (.control i)) ↔
          (watchLine (reading i s) s.task).faultStatus &&& 2 ≠ 0 := by
        rw [FoundB, step, hstatus]
      have hset : s.task.leftStartLine = true := hleft
      have hnone : ¬ FoundB s → s.task.faultStatus &&& 2 = 0 := not_not.mp
      rw [hflag, step, hcount, watchLine, hset]
      constructor
      case keep =>
        intro hfound
        have hfound' : s.task.faultStatus &&& 2 ≠ 0 := hfound
        simp [hfound']
      case reset =>
        intro hs hoff
        have hoff' : Armed i s ∧ ¬ (reading i s).lineDetected s.task.startBlackLevel = true :=
          Classical.not_imp.mp hoff
        have harmed : (reading i s).now - s.task.runStartedMs ≥ finishArmMs := hoff'.1
        simp [hnone hs, harmed, hoff'.2]
      case skip =>
        intro hs hon hnot
        have harmed : ¬ (reading i s).now - s.task.runStartedMs ≥ finishArmMs :=
          fun harmed => hnot ⟨harmed, hon harmed⟩
        simp [hnone hs, harmed]
      case raise =>
        intro hs _ hon hlt
        have harmed : (reading i s).now - s.task.runStartedMs ≥ finishArmMs := hon.1
        have hshort : ¬ s.task.lineStableSamples + 1 ≥ lineStableLimit := Nat.not_le.mpr hlt
        simp [hnone hs, harmed, hon.2, hshort]
      case set =>
        intro hs _ hon hle
        have harmed : (reading i s).now - s.task.runStartedMs ≥ finishArmMs := hon.1
        have hlong : s.task.lineStableSamples + 1 ≥ lineStableLimit := hle
        simp [hnone hs, harmed, hon.2, hlong, or_two_and_two_ne]

/-- Before the start line is left, line B is not found, and the test for it starts from
zero. -/
theorem waits_for_leftLine (s : StraightSystem F) (e : StraightEvent F) (h : Continues s e)
    (hleft : ¬ LeftLine s) (hfound : ¬ FoundB s) :
    ¬ FoundB (step s e) ∧ (LeftLine (step s e) → (step s e).task.lineStableSamples = 0) := by
  cases e with
  | interruption e => exact ⟨hfound, fun h => absurd h hleft⟩
  | control i =>
      obtain ⟨hline, hcount, hstatus⟩ := line_of_continues h
      have hnot : s.task.leftStartLine = false := Bool.not_eq_true _ ▸ hleft
      have hnone : s.task.faultStatus &&& 2 = 0 := not_not.mp hfound
      rw [FoundB, LeftLine, step, hline, hcount, hstatus, watchLine, hnot]
      split_ifs <;> simp_all

/-- The iteration that starts a run clears both flags and the counter. -/
theorem line_of_startsRun {i : StraightInput F} {s : StraightSystem F} (h : StartsRun i s) :
    ¬ LeftLine (controlTask i s) ∧ ¬ FoundB (controlTask i s) ∧
      (controlTask i s).task.lineStableSamples = 0 := by
  have hupdate := updateState_of_startsRun h
  have hintime : (reading i s).now - (startedTask i s).runStartedMs ≤ runTimeoutMs := by
    have hzero : i.now - i.now ≤ runTimeoutMs := by
      rw [UInt32.sub_self]
      decide
    exact hzero
  obtain ⟨hleft, hcount, hstatus, -⟩ :=
    run_line (reading i s) (totalRead i s .left) (totalRead i s .right) (startedTask i s) hintime
  rw [LeftLine, FoundB, task_of_running (by rw [hupdate]; rfl), hupdate, hleft, hcount, hstatus]
  have hzero : (0 : Int32) &&& 2 = 0 := by decide
  exact ⟨Bool.false_ne_true, not_not.mpr hzero, rfl⟩

/-- For a run that is started in any state and goes on, up to the iteration that finds the
targets reached: the start line counts as left if and only if the centre channel has been off
its level for five iterations without one on it in between, and line B is reported found if
and only if after that five armed iterations have seen the level of the start line, without
an armed one in between that has not. -/
theorem line_tests (i : StraightInput F) (s : StraightSystem F) (h : StartsRun i s)
    (run : List (StraightEvent F)) (hrun : EachStep step Continues (controlTask i s) run) :
    (LeftLine (exec step (controlTask i s) run) ↔
        Reached step StaysOff OffLine (controlTask i s) run lineStableLimit) ∧
      (FoundB (exec step (controlTask i s) run) ↔ ∃ before since, run = before ++ since ∧
        Reached step StaysOff OffLine (controlTask i s) before lineStableLimit ∧
        Reached step StaysOn OnLine (exec step (controlTask i s) before) since lineStableLimit) := by
  obtain ⟨hleft, hfound, hcount⟩ := line_of_startsRun h
  have hlimit : 0 < lineStableLimit := by decide
  have hfirst : ∀ run, EachStep step Continues (controlTask i s) run →
      (LeftLine (exec step (controlTask i s) run) ↔
        Reached step StaysOff OffLine (controlTask i s) run lineStableLimit) :=
    fun run hrun => (flag_and_count (fun s : StraightSystem F => s.task.lineStableSamples) hlimit
      leftLine_latches hleft hcount run hrun).1
  refine ⟨hfirst run hrun, ?_⟩
  rw [second_flag_iff (fun s : StraightSystem F => s.task.lineStableSamples) hlimit
    (fun s e hC hset => (leftLine_latches s e hC).keep hset) waits_for_leftLine foundB_latches hleft
    hfound hrun]
  refine exists_congr fun before => exists_congr fun since => and_congr_right fun hsplit => ?_
  rw [hsplit] at hrun
  rw [hfirst before (eachStep_append.mp hrun).1]

/-- The car leaves the start line: after the third iteration with the button held it runs,
and the level of the centre channel changes. -/
theorem leaves_start_line :
    Reached step StaysOff OffLine
      (controlTask (quietIteration 30)
        (exec step (start .atReset) [.control (quietIteration 10), .control (quietIteration 20)]))
      [.interruption (.pinChange ⟨.gpioA, 24⟩), .control (quietIteration 40),
        .control (quietIteration 50), .control (quietIteration 60), .control (quietIteration 70),
        .control (quietIteration 80)] lineStableLimit :=
  (line_tests (quietIteration 30) _ (by unfold StartsRun; decide +kernel)
    [.interruption (.pinChange ⟨.gpioA, 24⟩), .control (quietIteration 40),
      .control (quietIteration 50), .control (quietIteration 60), .control (quietIteration 70),
      .control (quietIteration 80)]
    ⟨trivial, by decide +kernel, by decide +kernel, by decide +kernel, by decide +kernel,
      by decide +kernel, trivial⟩).1.mp (by unfold LeftLine; decide +kernel)

end NuedcFirmware.Tests.Straight
