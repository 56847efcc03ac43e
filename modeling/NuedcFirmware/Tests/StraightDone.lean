import NuedcFirmware.Lib.Since
import NuedcFirmware.Tests.StraightLine

/-!
How a straight run ends.

A run that is done has been ended by its targets or by the button, and bit 0 of the status
tells which. Both are read off one iteration at a time (`done_step`, `running_step`) and put
together to the story of a whole run (`run_story`).
-/

namespace NuedcFirmware.Tests.Straight

open NuedcFirmware.Lib NuedcFirmware.Platform NuedcFirmware.Modules NuedcFirmware.System

variable {F : Type*} [CFloat F]

/-- A run began with this iteration, at this time, this level under the centre channel and
this yaw. -/
def Started (value : UInt32 × Bool × F) (s : StraightSystem F) : StraightEvent F → Prop
  | .control i => StartsRun i s ∧ value = (i.now, (reading i s).centerLevel, i.imu.yawDeg)
  | .interruption _ => False

/-- The iteration is one of a run: it begins it, or is in it and finds the button not
pressed. -/
def InRun (i : StraightInput F) (s : StraightSystem F) : Prop :=
  StartsRun i s ∨ s.task.state = .running ∧ (reading i s).pressed = false

/-- A run was ended by this iteration, at this time and with this status: bit 0 is set if both
wheels have reached their targets in time, and clear if it was the button. -/
def Ended (value : UInt32 × Int32) (s : StraightSystem F) : StraightEvent F → Prop
  | .control i =>
      systemFaultIsActive s.shared.supervisor.fault = false ∧ value.1 = i.now ∧
        (InRun i s ∧ i.now - (controlTask i s).task.runStartedMs ≤ runTimeoutMs ∧
            (∀ w, targetPulsesOf F w ≤ pulseCount (totalRead i s w)) ∧ value.2 &&& 1 ≠ 0 ∨
          s.task.state = .running ∧ (reading i s).pressed = true ∧ value.2 &&& 1 = 0)
  | .interruption _ => False

/-- While a run is not ended, bit 0 of the status is clear. -/
def NotYetDone (s : StraightSystem F) : Prop :=
  s.task.state = .running → s.task.faultStatus &&& 1 = 0

theorem or_two_and_one (status : Int32) : (status ||| 2) &&& 1 = status &&& 1 := by
  apply Int32.toBitVec_inj.mp
  show (status.toBitVec ||| 2#32) &&& 1#32 = status.toBitVec &&& 1#32
  have hbits : 2#32 &&& 1#32 = 0#32 := by decide
  rw [BitVec.and_or_distrib_right, hbits, BitVec.or_zero]

theorem or_one_and_one_ne (status : Int32) : (status ||| 1) &&& 1 ≠ 0 := by
  intro h
  have hbit := congrArg (fun word => word.toBitVec.getLsbD 0) h
  simp at hbit

section Iteration

variable {i : StraightInput F} {s : StraightSystem F}

/-- How the state machine comes to be running before the motor part. -/
theorem updateState_running (h : (updateState (reading i s) (buttonRead s)).state = .running) :
    systemFaultIsActive s.shared.supervisor.fault = false ∧
      (StartsRun i s ∧ updateState (reading i s) (buttonRead s) = startedTask i s ∨
        s.task.state = .running ∧ (reading i s).pressed = false ∧
          updateState (reading i s) (buttonRead s) = watchLine (reading i s) (buttonRead s)) := by
  have hnoFault : systemFaultIsActive s.shared.supervisor.fault = false := by
    rw [Bool.eq_false_iff]
    intro hactive
    rw [fault_updateState (Or.inl hactive)] at h
    cases h
  refine ⟨hnoFault, ?_⟩
  by_cases hstart : StartsRun i s
  · exact Or.inl ⟨hstart, updateState_of_startsRun hstart⟩
  · have hnot : startsRun (reading i s) (checkFault (reading i s) (buttonRead s)) = false :=
      Bool.not_eq_true _ ▸ hstart
    rw [state_updateState, state_pressButton, hnot, checkFault_of_noFault hnoFault] at h
    cases hend : endsRun (reading i s) (buttonRead s) with
    | true =>
        rw [hend] at h
        cases h
    | false =>
        rw [hend] at h
        have hrunning : s.task.state = .running := h
        have hstate : (buttonRead s).state = .running := hrunning
        have hpressed : (reading i s).pressed = false := by
          simpa [endsRun, hstate] using hend
        exact Or.inr ⟨hrunning, hpressed, updateState_of_running hrunning hpressed hnoFault⟩

/-- Until its end a run has bit 0 clear. -/
theorem bit_of_updateState (hinv : NotYetDone s)
    (h : (updateState (reading i s) (buttonRead s)).state = .running) :
    (updateState (reading i s) (buttonRead s)).faultStatus &&& 1 = 0 := by
  obtain ⟨-, ⟨-, hupdate⟩ | ⟨hrunning, -, hupdate⟩⟩ := updateState_running h
  · rw [hupdate]
    show (0 : Int32) &&& 1 = 0
    decide
  · have hbit : (buttonRead s).faultStatus &&& 1 = 0 := hinv hrunning
    rw [hupdate, watchLine]
    split_ifs
    · exact hbit
    · exact hbit
    · exact hbit
    · exact (or_two_and_one _).trans hbit
    · exact hbit
    · exact hbit
    · exact hbit

/-- What the motor part of a run comes to. -/
theorem run_cases (r : Reading F) (leftTotal rightTotal : ℤ) (task : StraightTask F) :
    ((run r leftTotal rightTotal task).task.state = .fault) ∨
      (r.now - task.runStartedMs ≤ runTimeoutMs ∧
        leftTargetPulses F ≤ pulseCount leftTotal ∧ rightTargetPulses F ≤ pulseCount rightTotal ∧
        (run r leftTotal rightTotal task).task =
          { task with
            brakeStartedMs := r.now, faultStatus := task.faultStatus ||| 1, state := .done }) ∨
      (run r leftTotal rightTotal task).task = task := by
  rw [run]
  dsimp only
  by_cases hlate : r.now - task.runStartedMs > runTimeoutMs
  · rw [if_pos hlate]
    exact Or.inl rfl
  rw [if_neg hlate]
  by_cases hreached : pulseCount leftTotal ≥ leftTargetPulses F ∧
      pulseCount rightTotal ≥ rightTargetPulses F
  · rw [if_pos hreached]
    exact Or.inr (Or.inl ⟨UInt32.not_lt.mp hlate, hreached.1, hreached.2, rfl⟩)
  · rw [if_neg hreached]
    exact Or.inr (Or.inr rfl)

omit [CFloat F] in
/-- The line tests leave what was noted at the start. -/
theorem watchLine_kept (r : Reading F) (task : StraightTask F) :
    ((watchLine r task).runStartedMs, (watchLine r task).startBlackLevel,
        (watchLine r task).yawReference) =
      (task.runStartedMs, task.startBlackLevel, task.yawReference) := by
  rw [watchLine]
  split_ifs <;> rfl

/-- The state machine is done without the motor part: by the button, or since before. -/
theorem updateState_done (hinv : NotYetDone s)
    (h : (updateState (reading i s) (buttonRead s)).state = .done) :
    s.task.state = .done ∧
        ((updateState (reading i s) (buttonRead s)).brakeStartedMs,
            (updateState (reading i s) (buttonRead s)).faultStatus) =
          (s.task.brakeStartedMs, s.task.faultStatus) ∨
      Ended ((updateState (reading i s) (buttonRead s)).brakeStartedMs,
        (updateState (reading i s) (buttonRead s)).faultStatus) s (.control i) := by
  have hnoFault : systemFaultIsActive s.shared.supervisor.fault = false := by
    rw [Bool.eq_false_iff]
    intro hactive
    rw [fault_updateState (Or.inl hactive)] at h
    cases h
  have hpress : updateState (reading i s) (buttonRead s) =
      pressButton (reading i s) (buttonRead s) := by
    have hstate : (updateState (reading i s) (buttonRead s)).state =
        (pressButton (reading i s) (checkFault (reading i s) (buttonRead s))).state :=
      state_updateState
    rw [h, checkFault_of_noFault hnoFault] at hstate
    rw [updateState, checkFault_of_noFault hnoFault, if_neg]
    rw [← hstate]
    decide
  rw [hpress] at h ⊢
  cases hstart : startsRun (reading i s) (buttonRead s) with
  | true =>
      rw [state_pressButton, hstart] at h
      cases h
  | false =>
      cases hend : endsRun (reading i s) (buttonRead s) with
      | true =>
          have hpressed : (reading i s).pressed = true ∧ s.task.state = .running := by
            rw [endsRun, Bool.and_eq_true, decide_eq_true_eq] at hend
            exact hend
          rw [pressButton, hstart, hend]
          exact Or.inr ⟨hnoFault, rfl, Or.inr ⟨hpressed.2, hpressed.1, hinv hpressed.2⟩⟩
      | false =>
          rw [pressButton, hstart, hend] at h ⊢
          exact Or.inl ⟨h, rfl⟩

end Iteration

theorem notYetDone_step (s : StraightSystem F) (e : StraightEvent F) (h : NotYetDone s) :
    NotYetDone (step s e) := by
  cases e with
  | interruption e => exact h
  | control i =>
      intro hstate
      rw [step] at hstate ⊢
      by_cases hrunning : (updateState (reading i s) (buttonRead s)).state = .running
      · rw [task_of_running hrunning] at hstate ⊢
        rcases run_cases (reading i s) (totalRead i s .left) (totalRead i s .right) _ with
          hfault | ⟨-, -, -, htask⟩ | htask
        · rw [hfault] at hstate
          cases hstate
        · rw [htask] at hstate
          cases hstate
        · rw [htask]
          exact bit_of_updateState h hrunning
      · rw [task_controlTask, motorPart, task_drive hrunning] at hstate
        exact absurd hstate hrunning

/-- An iteration after which the car runs has begun the run, or found it running. -/
theorem running_step (s : StraightSystem F) (e : StraightEvent F)
    (h : (step s e).task.state = .running) :
    s.task.state = .running ∧
        ((step s e).task.runStartedMs, (step s e).task.startBlackLevel, (step s e).task.yawReference) =
          (s.task.runStartedMs, s.task.startBlackLevel, s.task.yawReference) ∨
      Started ((step s e).task.runStartedMs, (step s e).task.startBlackLevel,
        (step s e).task.yawReference) s e := by
  cases e with
  | interruption e => exact Or.inl ⟨h, rfl⟩
  | control i =>
      rw [step] at h ⊢
      by_cases hrunning : (updateState (reading i s) (buttonRead s)).state = .running
      · rw [task_of_running hrunning] at h ⊢
        rcases run_cases (reading i s) (totalRead i s .left) (totalRead i s .right) _ with
          hfault | ⟨-, -, -, htask⟩ | htask
        · rw [hfault] at h
          cases h
        · rw [htask] at h
          cases h
        · rw [htask]
          obtain ⟨-, ⟨hstart, hupdate⟩ | ⟨hbefore, -, hupdate⟩⟩ := updateState_running hrunning
          · rw [hupdate]
            exact Or.inr ⟨hstart, rfl⟩
          · rw [hupdate]
            exact Or.inl ⟨hbefore, watchLine_kept (reading i s) (buttonRead s)⟩
      · rw [task_controlTask, motorPart, task_drive hrunning] at h
        exact absurd h hrunning

/-- An iteration after which the run is done has ended it, or found it done. -/
theorem done_step (s : StraightSystem F) (e : StraightEvent F) (hinv : NotYetDone s)
    (h : (step s e).task.state = .done) :
    s.task.state = .done ∧ ((step s e).task.brakeStartedMs, (step s e).task.faultStatus) =
        (s.task.brakeStartedMs, s.task.faultStatus) ∨
      Ended ((step s e).task.brakeStartedMs, (step s e).task.faultStatus) s e := by
  cases e with
  | interruption e => exact Or.inl ⟨h, rfl⟩
  | control i =>
      rw [step] at h ⊢
      by_cases hrunning : (updateState (reading i s) (buttonRead s)).state = .running
      · obtain ⟨hnoFault, hin⟩ := updateState_running hrunning
        have hinRun : InRun i s := hin.imp And.left fun hin => ⟨hin.1, hin.2.1⟩
        have htask := task_of_running hrunning
        rw [htask] at h
        rcases run_cases (reading i s) (totalRead i s .left) (totalRead i s .right)
            (updateState (reading i s) (buttonRead s)) with
          hfault | ⟨hintime, hleft, hright, hdone⟩ | hkept
        · rw [hfault] at h
          cases h
        · rw [hdone] at htask
          rw [Ended, htask]
          refine Or.inr ⟨hnoFault, rfl, Or.inl ⟨hinRun, hintime, fun w => ?_, or_one_and_one_ne _⟩⟩
          cases w with
          | left => exact hleft
          | right => exact hright
        · rw [hkept, hrunning] at h
          cases h
      · have htask : (controlTask i s).task = updateState (reading i s) (buttonRead s) := by
          rw [task_controlTask, motorPart, task_drive hrunning]
        rw [htask] at h ⊢
        exact updateState_done hinv h

/-- The story of every run from the start. Where the car runs, an iteration with the button
has started it, and it has run since. Where a run is done, an iteration has ended it and it
has been done since: bit 0 of the status is set if the wheels had reached both targets in
time, and clear if the button had been pressed. -/
theorem run_story (b : Board) (run : List (StraightEvent F)) :
    ((exec step (start b) run).task.state = .running →
      Since step
        (Started ((exec step (start b) run).task.runStartedMs,
          (exec step (start b) run).task.startBlackLevel,
          (exec step (start b) run).task.yawReference))
        (fun s _ => s.task.state = .running) (start b) run) ∧
    ((exec step (start b) run).task.state = .done →
      Since step
        (Ended ((exec step (start b) run).task.brakeStartedMs,
          (exec step (start b) run).task.faultStatus))
        (fun s _ => s.task.state = .done) (start b) run) := by
  constructor
  · intro h
    have hidle : ¬ (start b : StraightSystem F).task.state = .running := by
      simp [start, StraightTask.initial]
    exact @since_of_steps _ _ _ step (start b) _
      (fun s => (s.task.runStartedMs, s.task.startBlackLevel, s.task.yawReference)) _
      running_step hidle run h
  · intro h
    have hidle : ¬ (start b : StraightSystem F).task.state = .done := by
      simp [start, StraightTask.initial]
    have hyet : NotYetDone (start b : StraightSystem F) := fun h => by cases h
    exact @since_of_invariant _ _ _ step (start b) _ _
      (fun s => (s.task.brakeStartedMs, s.task.faultStatus)) _
      notYetDone_step done_step hyet hidle run h

/-- The button is held for three iterations. -/
def heldButton : List (StraightEvent Single) :=
  [.control (quietIteration 10), .control (quietIteration 20), .control (quietIteration 30)]

/-- The third iteration starts the run. -/
theorem run_story_of_held_button :
    (exec step (start .atReset) heldButton).task.runStartedMs = 30 ∧
      Since step
        (Started ((exec step (start .atReset) heldButton).task.runStartedMs,
          (exec step (start .atReset) heldButton).task.startBlackLevel,
          (exec step (start .atReset) heldButton).task.yawReference))
        (fun s _ => s.task.state = .running) (start .atReset) heldButton :=
  ⟨by decide +kernel, (run_story .atReset heldButton).1 (by decide +kernel)⟩

end NuedcFirmware.Tests.Straight
