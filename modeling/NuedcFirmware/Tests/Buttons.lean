import NuedcFirmware.Lib.Debounce
import NuedcFirmware.Tests.StraightSafety
import NuedcFirmware.Tests.TurnSafety

/-!
The buttons of the straight and of the turn test.

Both programs debounce, with the same three samples. An iteration sees a press when the
samples of all iterations so far have just settled on it, so that a press is seen once,
however long the button is held and however it bounces.
-/

namespace NuedcFirmware.Tests

open NuedcFirmware.Lib NuedcFirmware.Platform NuedcFirmware.Modules NuedcFirmware.System

namespace Straight

/-! ### The straight test -/

def ButtonReader.debouncer (button : ButtonReader) : Debouncer Bool :=
  ⟨button.candidate, button.stableSamples, button.stable⟩

/-- Where the program tests for a change, the value that is taken over is not changed by
the test. -/
theorem readButtonPressEvent_eq (sample : Bool) (button : ButtonReader) :
    (readButtonPressEvent sample button).2.debouncer =
        button.debouncer.sample debounceSamples sample ∧
      ((readButtonPressEvent sample button).1 = true ↔
        (button.debouncer.sample debounceSamples sample).stable = true ∧
          button.debouncer.stable ≠ true) := by
  have hlimit : ¬debounceSamples ≤ 1 := by decide
  rw [readButtonPressEvent, Debouncer.sample]
  by_cases hnew : sample = button.candidate
  · by_cases hlt : button.stableSamples < debounceSamples
    · grind [ButtonReader.debouncer]
    · grind [ButtonReader.debouncer]
  · grind [ButtonReader.debouncer]

variable {F : Type*} [CFloat F]

/-- What the button of an iteration reads. -/
def buttonSample (s : StraightSystem F) : StraightEvent F → Option Bool
  | .control _ => some (drvGpioReadActive sStartStopButton s.shared.motor.board)
  | .interruption _ => none

theorem button_controlTask (i : StraightInput F) (s : StraightSystem F) :
    (controlTask i s).task.button = (buttonRead s).button := by
  have hcheck (r : Reading F) (task : StraightTask F) :
      (checkFault r task).button = task.button := by
    rw [checkFault]
    split <;> rfl
  have hpress (r : Reading F) (task : StraightTask F) :
      (pressButton r task).button = task.button := by
    rw [pressButton]
    split_ifs <;> rfl
  have hwatch (r : Reading F) (task : StraightTask F) :
      (watchLine r task).button = task.button := by
    rw [watchLine]
    split_ifs <;> rfl
  have hupdate (r : Reading F) (task : StraightTask F) :
      (updateState r task).button = task.button := by
    rw [updateState]
    split_ifs
    · rw [hwatch, hpress, hcheck]
    · rw [hpress, hcheck]
  have hrun (r : Reading F) (left right : ℤ) (task : StraightTask F) :
      (run r left right task).task.button = task.button := by
    rw [run]
    split_ifs <;> rfl
  have hdrive (r : Reading F) (left right : ℤ) (task : StraightTask F) :
      (drive r left right task).task.button = task.button := by
    rw [drive, stopOnFault]
    cases task.state <;> dsimp only <;> split_ifs <;> first | exact hrun .. | rfl
  exact (hdrive _ _ _ _).trans (hupdate _ _)

theorem button_step (s : StraightSystem F) (e : StraightEvent F) :
    (step s e).task.button.debouncer =
      (buttonSample s e).elim s.task.button.debouncer
        (s.task.button.debouncer.sample debounceSamples) := by
  cases e with
  | interruption e => rfl
  | control i =>
      show (controlTask i s).task.button.debouncer = _
      rw [button_controlTask]
      exact (readButtonPressEvent_eq _ _).1

/-- What the button has read in the iterations of a run, with the released button that the
program begins with. -/
def buttonHistory (b : Board) (run : List (StraightEvent F)) : List Bool :=
  List.replicate debounceSamples false ++ samples step buttonSample (start b) run

/-- In every run from the start an iteration sees a press if and only if the readings have
settled on the pressed button with it, and had not before. -/
theorem press_iff_settled (b : Board) (run : List (StraightEvent F)) (i : StraightInput F) :
    (reading i (exec step (start b) run)).pressed = true ↔
      Settled debounceSamples (buttonHistory b (run ++ [.control i])) true ∧
        ¬Settled debounceSamples (buttonHistory b run) true := by
  have hstart : (start b : StraightSystem F).task.button.debouncer.Follows debounceSamples
      (List.replicate debounceSamples false) :=
    Debouncer.follows_settled (by decide) false
  have hrun := follows_run (fun s : StraightSystem F => s.task.button.debouncer) button_step
    hstart run
  rw [buttonHistory, samples_append, ← List.append_assoc]
  exact (readButtonPressEvent_eq _ _).2.trans (hrun.stable_ne _ true)

end Straight

/-! ### The turn test -/

section Turn

variable {F : Type*} [CFloat F]

def ControlTask.debouncer (task : ControlTask F) : Debouncer ButtonCommand :=
  ⟨task.candidate, task.stableSamples, task.stable⟩

omit [CFloat F] in
theorem debounce_eq (sample : ButtonCommand) (task : ControlTask F) :
    (debounce sample task).2.debouncer = task.debouncer.sample debounceSamples sample ∧
      ∀ c ≠ .none, (debounce sample task).1 = c ↔
        (task.debouncer.sample debounceSamples sample).stable = c ∧ task.debouncer.stable ≠ c := by
  have hlimit : ¬debounceSamples ≤ 1 := by decide
  rw [debounce, Debouncer.sample]
  by_cases hnew : sample = task.candidate
  · by_cases hlt : task.stableSamples < debounceSamples
    · grind [ControlTask.debouncer]
    · grind [ControlTask.debouncer]
  · grind [ControlTask.debouncer]

omit [CFloat F] in
theorem debouncer_checkFaults (faultActive : Bool) (imu : ImuSnapshot F) (task : ControlTask F) :
    (checkFaults faultActive imu task).debouncer = task.debouncer := by
  rw [checkFaults]
  split_ifs <;> rfl

theorem debouncer_startTurn (build : TurnBuild F) (now : UInt32) (imu : ImuSnapshot F)
    (pressed : ButtonCommand) (task : ControlTask F) :
    (startTurn build now imu pressed task).debouncer = task.debouncer := by
  rw [startTurn]
  split_ifs
  · cases pressed <;> rfl
  · rfl

theorem debouncer_turn (build : TurnBuild F) (now : UInt32) (imu : ImuSnapshot F)
    (task : ControlTask F) : (turn build now imu task).task.debouncer = task.debouncer := by
  have hsettled (errorDeg : F) (task : ControlTask F) :
      (settled build now imu errorDeg task).task.debouncer = task.debouncer := by
    rw [settled]
    split_ifs <;> rfl
  have hbrake (errorDeg : F) :
      (brakePhase build now imu errorDeg task).task.debouncer = task.debouncer := by
    rw [brakePhase]
    split_ifs <;> first | exact hsettled .. | rfl
  rw [turn]
  split_ifs
  · rfl
  · rfl
  · split
    · rw [coarsePhase]
      split_ifs <;> rfl
    · rw [finePulsePhase]
      split_ifs <;> rfl
    · exact hbrake _

theorem debouncer_drive (build : TurnBuild F) (now : UInt32) (imu : ImuSnapshot F)
    (task : ControlTask F) : (drive build now imu task).task.debouncer = task.debouncer := by
  have hpause : (sequencePause build now imu task).task.debouncer = task.debouncer := by
    rw [sequencePause]
    dsimp only
    split_ifs <;> rfl
  rw [drive]
  split_ifs <;> first | exact debouncer_turn .. | exact hpause | rfl

/-- What the buttons of an iteration read. -/
def turnButtons : TurnEvent F → Option ButtonCommand
  | .control i => some (readButtons i.cw i.ccw i.sequence)
  | .faultRaise _ _ => none

theorem debouncer_step (build : TurnBuild F) (s : TurnSystem F) (e : TurnEvent F) :
    (step build s e).task.debouncer =
      (turnButtons e).elim s.task.debouncer (s.task.debouncer.sample debounceSamples) := by
  cases e with
  | faultRaise code detail => rfl
  | control i =>
      show (decision build i s).task.debouncer = _
      rw [decision, debouncer_drive, debouncer_startTurn, debouncer_checkFaults]
      exact (debounce_eq _ _).1

/-- What the buttons have read in the iterations of a run, with no button before. -/
def turnHistory (build : TurnBuild F) (b : Board) (run : List (TurnEvent F)) :
    List ButtonCommand :=
  List.replicate debounceSamples .none ++
    samples (step build) (fun _ => turnButtons) (start b) run

/-- In every run from the start an iteration takes a command if and only if the readings have
settled on its button alone with it, and had not before. -/
theorem command_iff_settled (build : TurnBuild F) (b : Board) (run : List (TurnEvent F))
    (i : TurnInput F) (c : ButtonCommand) (hc : c ≠ .none) :
    (debounce (readButtons i.cw i.ccw i.sequence) (exec (step build) (start b) run).task).1 = c ↔
      Settled debounceSamples (turnHistory build b (run ++ [.control i])) c ∧
        ¬Settled debounceSamples (turnHistory build b run) c := by
  have hstart : (start b : TurnSystem F).task.debouncer.Follows debounceSamples
      (List.replicate debounceSamples .none) :=
    Debouncer.follows_settled (show 0 < debounceSamples by decide) ButtonCommand.none
  have hrun := follows_run (fun s : TurnSystem F => s.task.debouncer) (debouncer_step build)
    hstart run
  rw [turnHistory, samples_append, ← List.append_assoc]
  exact ((debounce_eq _ _).2 c hc).trans (hrun.stable_ne _ c)

/-- An iteration that finds the first button pressed. -/
def cwPressed : TurnInput Single :=
  { now := 0
    imu :=
      { sequence := 0, timestampMs := 0, accelG := (0.0, 0.0, 1.0), gyroDps := (0.0, 0.0, 0.0)
        temperatureC := 25.0, pitchDeg := 0.0, rollDeg := 0.0, yawDeg := 0.0, gyroBiasZDps := 0.0
        gyroScaleZ := 1.0, status := 0, state := .ready, yawCalState := .idle, stationary := true
        ready := true }
    cw := true, ccw := false, sequence := false, raised := fun _ => none }

/-- The third iteration in a row takes the command. -/
theorem command_iff_settled_third :
    Settled debounceSamples
        (turnHistory turnTest .atReset [.control cwPressed, .control cwPressed, .control cwPressed])
        .cw ∧
      ¬Settled debounceSamples
        (turnHistory turnTest .atReset [.control cwPressed, .control cwPressed]) .cw :=
  (command_iff_settled turnTest .atReset [.control cwPressed, .control cwPressed] cwPressed .cw
    (by decide)).mp (by decide +kernel)

end Turn

end NuedcFirmware.Tests
