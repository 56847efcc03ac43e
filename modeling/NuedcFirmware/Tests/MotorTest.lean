import NuedcFirmware.Lib.Debounce
import NuedcFirmware.Modules.MotorHardware

/-!
The motor test, `motor_test.c`: a button drives the motors for as long as it is held.

It is one endless loop over the drivers, without the motor module. Whatever the buttons do,
the output stages show the duties of the state that the readings have settled on, and the
last report sent is the one of that state (`motors_follow_buttons`).
-/

namespace NuedcFirmware.Tests.MotorTest

open NuedcFirmware.Lib NuedcFirmware.Platform NuedcFirmware.Modules
open NuedcFirmware.Modules.MotorHardware

inductive MotorTestState
  | stop
  | left
  | right
  | forward
  deriving DecidableEq, Repr

def motorTestDuty : ℤ := 300
def loopPeriodMs : UInt16 := 10
def debounceSamples : ℕ := 3
def heartbeatPeriodMs : UInt16 := 500

def sLeftMotor : DrvHBridgeMotor where
  pwm := { channel := .cc0, periodTicks := 1000, polarity := .activeLow }
  in1 := { pin := ⟨.gpioA, 15⟩, activeLow := false }
  in2 := { pin := ⟨.gpioA, 16⟩, activeLow := false }
  direction := -1

def sRightMotor : DrvHBridgeMotor where
  pwm := { channel := .cc1, periodTicks := 1000, polarity := .activeLow }
  in1 := { pin := ⟨.gpioA, 12⟩, activeLow := false }
  in2 := { pin := ⟨.gpioB, 23⟩, activeLow := false }
  direction := -1

def sLeftButton : DrvGpioPin := { pin := ⟨.gpioA, 7⟩, activeLow := true }
def sRightButton : DrvGpioPin := { pin := ⟨.gpioB, 1⟩, activeLow := true }
def sForwardButton : DrvGpioPin := { pin := ⟨.gpioB, 21⟩, activeLow := true }

/-- `STATUS_LED_PIN`. -/
def statusLed : Pin := ⟨.gpioB, 22⟩

/-- `read_button_state`: one button alone is pressed. -/
def readButtonState (b : Board) : MotorTestState :=
  let left := drvGpioReadActive sLeftButton b
  let right := drvGpioReadActive sRightButton b
  let forward := drvGpioReadActive sForwardButton b
  if left.toNat + right.toNat + forward.toNat ≠ 1 then .stop
  else if left then .left
  else if right then .right
  else .forward

/-- The text that `apply_state` sends. -/
def MotorTestState.report : MotorTestState → String
  | .left => "$MOTOR,LEFT,300,0\r\n"
  | .right => "$MOTOR,RIGHT,0,300\r\n"
  | .forward => "$MOTOR,FORWARD,300,300\r\n"
  | .stop => "$MOTOR,STOP,0,0\r\n"

/-- The motor part of `apply_state`. -/
def driveState (state : MotorTestState) (b : Board) : Board :=
  let b := b |> drvHBridgeMotorCoast sLeftMotor |> drvHBridgeMotorCoast sRightMotor
  match state with
  | .left => drvHBridgeMotorSetSignedDuty sLeftMotor motorTestDuty b
  | .right => drvHBridgeMotorSetSignedDuty sRightMotor motorTestDuty b
  | .forward =>
      b |> drvHBridgeMotorSetSignedDuty sLeftMotor motorTestDuty
        |> drvHBridgeMotorSetSignedDuty sRightMotor motorTestDuty
  | .stop => b

/-- The board, the variables of `main`, and the texts sent. -/
structure MotorSystem where
  board : Board
  candidate : MotorTestState
  applied : MotorTestState
  stableSamples : ℕ
  heartbeatMs : UInt16
  sent : List String

namespace MotorSystem

def applyState (state : MotorTestState) (s : MotorSystem) : MotorSystem :=
  { s with board := driveState state s.board, sent := s.sent ++ [state.report] }

/-- The button part of the loop. -/
def debounce (sample : MotorTestState) (s : MotorSystem) : MotorSystem :=
  let s :=
    if sample ≠ s.candidate then { s with candidate := sample, stableSamples := 1 }
    else if s.stableSamples < debounceSamples then
      { s with stableSamples := s.stableSamples + 1 }
    else s
  if s.stableSamples ≥ debounceSamples ∧ s.applied ≠ s.candidate then
    { s.applyState s.candidate with applied := s.candidate }
  else s

/-- `DL_GPIO_togglePins` on the LED. -/
def toggleLed (s : MotorSystem) : MotorSystem :=
  { s with board := s.board.writePin statusLed (!s.board.output statusLed) }

/-- One round of the loop. -/
def loop (s : MotorSystem) : MotorSystem :=
  let s := { s with heartbeatMs := s.heartbeatMs + loopPeriodMs }
  let s := s.debounce (readButtonState s.board)
  if s.heartbeatMs ≥ heartbeatPeriodMs then { s with heartbeatMs := 0 }.toggleLed else s

end MotorSystem

/-- A step: a round, or a change of a pin between two of them. -/
inductive Event
  | loop
  | pinChange (p : Pin)

def step (s : MotorSystem) : Event → MotorSystem
  | .loop => s.loop
  | .pinChange p =>
      { s with board := { s.board with input := Function.update s.board.input p (!s.board.input p) } }

/-- The texts sent before the loop. -/
def opening : List String :=
  [MotorTestState.stop.report, "\r\nMOTOR BUTTON TEST v1\r\n",
    "PA7=LEFT PB1=RIGHT PB21=FORWARD DUTY=300\r\n"]

/-- What `main` leaves before its loop. -/
def start (b : Board) : MotorSystem where
  board :=
    b |> drvHBridgeMotorStart sLeftMotor |> drvHBridgeMotorStart sRightMotor |> driveState .stop
  candidate := .stop
  applied := .stop
  stableSamples := debounceSamples
  heartbeatMs := 0
  sent := opening

/-! ### Output stages -/

/-- The bridges are those of the motor module. -/
def motorOf : Wheel → DrvHBridgeMotor
  | .left => sLeftMotor
  | .right => sRightMotor

theorem motorOf_eq (w : Wheel) : motorOf w = (sMotorConfig w).output := by
  cases w <;> rfl

theorem wired_motorOf (w : Wheel) : Wired (motorOf w) := by
  rw [motorOf_eq]
  exact wired_sMotorConfig w

theorem apart_left : Apart sLeftMotor sRightMotor :=
  apart_sMotorConfig (show Wheel.right ≠ Wheel.left by decide)

theorem apart_right : Apart sRightMotor sLeftMotor :=
  apart_sMotorConfig (show Wheel.left ≠ Wheel.right by decide)

/-- The duty of a wheel in a state. -/
def MotorTestState.duty : MotorTestState → Wheel → Duty
  | .left, .left | .right, .right | .forward, _ => toDuty motorTestDuty
  | _, _ => toDuty 0

theorem stage_setTestDuty (w : Wheel) (b : Board) :
    stage (motorOf w) (drvHBridgeMotorSetSignedDuty (motorOf w) motorTestDuty b) =
      (Command.drive (toDuty motorTestDuty)).stage :=
  stage_setSignedDuty (wired_motorOf w) b (toDuty motorTestDuty)

theorem stage_driveState (state : MotorTestState) (b : Board) (w : Wheel) :
    stage (motorOf w) (driveState state b) = (Command.drive (state.duty w)).stage := by
  have hright (b : Board) : stage sRightMotor (drvHBridgeMotorCoast sRightMotor b) =
      (Command.drive (toDuty 0)).stage :=
    stage_coast (wired_motorOf .right) b
  have hleft (b : Board) : stage sLeftMotor
      (drvHBridgeMotorCoast sRightMotor (drvHBridgeMotorCoast sLeftMotor b)) =
        (Command.drive (toDuty 0)).stage := by
    rw [stage_coast_of_apart apart_right]
    exact stage_coast (wired_motorOf .left) b
  cases w with
  | left =>
      cases state with
      | stop => exact hleft b
      | left => exact stage_setTestDuty .left _
      | right => exact (stage_setSignedDuty_of_apart apart_right _ motorTestDuty).trans (hleft b)
      | forward =>
          exact (stage_setSignedDuty_of_apart apart_right _ motorTestDuty).trans
            (stage_setTestDuty .left _)
  | right =>
      cases state with
      | stop => exact hright _
      | left => exact (stage_setSignedDuty_of_apart apart_left _ motorTestDuty).trans (hright _)
      | right => exact stage_setTestDuty .right _
      | forward => exact stage_setTestDuty .right _

/-- The LED is on none of their pins. -/
theorem stage_writeLed (w : Wheel) (b : Board) (high : Bool) :
    stage (motorOf w) (b.writePin statusLed high) = stage (motorOf w) b := by
  cases w <;> simp [stage, motorOf, sLeftMotor, sRightMotor, statusLed]

theorem led_coast (w : Wheel) (b : Board) :
    (drvHBridgeMotorCoast (motorOf w) b).output statusLed = b.output statusLed := by
  cases w <;> simp [drvHBridgeMotorCoast, drvGpioWriteRaw, motorOf, sLeftMotor, sRightMotor,
    statusLed, drvPwmSetDutyPermille, drvPwmSetCompareRaw]

theorem led_setTestDuty (w : Wheel) (b : Board) :
    (drvHBridgeMotorSetSignedDuty (motorOf w) motorTestDuty b).output statusLed =
      b.output statusLed := by
  cases w <;> simp [drvHBridgeMotorSetSignedDuty, drvGpioWriteRaw, motorOf, sLeftMotor,
    sRightMotor, statusLed, drvPwmSetDutyPermille, drvPwmSetCompareRaw, clampDuty, motorTestDuty,
    hbridgeDutyMax, DrvHBridgeMotor.wired]

theorem led_driveState (state : MotorTestState) (b : Board) :
    (driveState state b).output statusLed = b.output statusLed := by
  have hcoast : (drvHBridgeMotorCoast sRightMotor (drvHBridgeMotorCoast sLeftMotor b)).output
      statusLed = b.output statusLed :=
    (led_coast .right _).trans (led_coast .left b)
  cases state with
  | stop => exact hcoast
  | left => exact (led_setTestDuty .left _).trans hcoast
  | right => exact (led_setTestDuty .right _).trans hcoast
  | forward => exact (led_setTestDuty .right _).trans ((led_setTestDuty .left _).trans hcoast)

/-! ### Rounds -/

def MotorSystem.debouncer (s : MotorSystem) : Debouncer MotorTestState :=
  ⟨s.candidate, s.stableSamples, s.applied⟩

/-- The debouncer is given the sample, and a state that it takes over newly is applied. -/
theorem debounce_eq (sample : MotorTestState) (s : MotorSystem) :
    let d := s.debouncer.sample debounceSamples sample
    s.debounce sample =
      { (if d.stable = s.applied then s else s.applyState d.stable) with
        candidate := d.candidate
        stableSamples := d.count
        applied := d.stable } := by
  have hlimit : ¬debounceSamples ≤ 1 := by decide
  obtain ⟨board, candidate, applied, stableSamples, heartbeatMs, sent⟩ := s
  simp only [MotorSystem.debounce, Debouncer.sample, MotorSystem.debouncer]
  by_cases hnew : sample = candidate
  · by_cases hlt : stableSamples < debounceSamples
    · grind [MotorSystem.applyState]
    · grind [MotorSystem.applyState]
  · grind [MotorSystem.applyState]

/-- What has been sent: after the opening a report of every change, of which the last led to
the state. -/
inductive Reported : MotorTestState → List String → Prop
  | opening : Reported .stop opening
  | change {old new : MotorTestState} {sent : List String} (h : Reported old sent)
      (hne : new ≠ old) : Reported new (sent ++ [new.report])

/-- The motors show the state applied, and the reports lead to it. -/
structure Shown (s : MotorSystem) : Prop where
  stages : ∀ w, stage (motorOf w) s.board = (Command.drive (s.applied.duty w)).stage
  reported : Reported s.applied s.sent

theorem Shown.debounce {s : MotorSystem} (h : Shown s) (sample : MotorTestState) :
    Shown (s.debounce sample) := by
  rw [debounce_eq]
  split_ifs with hsame
  · constructor
    · rw [hsame]
      exact h.stages
    · rw [hsame]
      exact h.reported
  · exact ⟨stage_driveState _ _, h.reported.change hsame⟩

theorem heartbeat_debounce (s : MotorSystem) (sample : MotorTestState) :
    (s.debounce sample).heartbeatMs = s.heartbeatMs := by
  rw [debounce_eq]
  split_ifs <;> rfl

theorem led_debounce (s : MotorSystem) (sample : MotorTestState) :
    (s.debounce sample).board.output statusLed = s.board.output statusLed := by
  rw [debounce_eq]
  split_ifs
  · rfl
  · exact led_driveState _ _

/-- The LED changes with every fiftieth round. -/
structure Inv (b : Board) (rounds : ℕ) (s : MotorSystem) : Prop extends Shown s where
  heartbeat : s.heartbeatMs.toNat = 10 * (rounds % 50)
  led : s.board.output statusLed = (b.output statusLed ^^ decide (rounds / 50 % 2 = 1))

theorem Inv.loop {b : Board} {rounds : ℕ} {s : MotorSystem} (h : Inv b rounds s) :
    Inv b (rounds + 1) s.loop := by
  have hbeat : (s.heartbeatMs + loopPeriodMs).toNat = 10 * (rounds % 50) + 10 := by
    rw [UInt16.toNat_add, h.heartbeat]
    show (10 * (rounds % 50) + 10) % 65536 = _
    omega
  have hshown : Shown { s with heartbeatMs := s.heartbeatMs + loopPeriodMs } :=
    ⟨h.stages, h.reported⟩
  have hdebounce := hshown.debounce (readButtonState s.board)
  have hled := led_debounce { s with heartbeatMs := s.heartbeatMs + loopPeriodMs }
    (readButtonState s.board)
  rw [MotorSystem.loop]
  simp only [heartbeat_debounce]
  split_ifs with hfull
  · have hlast : rounds % 50 = 49 := by
      have hle : 500 ≤ (s.heartbeatMs + loopPeriodMs).toNat := UInt16.le_iff_toNat_le.mp hfull
      omega
    refine ⟨⟨fun w => ?_, hdebounce.reported⟩, ?_, ?_⟩
    · exact (stage_writeLed w _ _).trans (hdebounce.stages w)
    · show 0 = _
      omega
    · have hodd : (rounds + 1) / 50 % 2 = 1 ↔ ¬rounds / 50 % 2 = 1 := by omega
      rw [MotorSystem.toggleLed, Board.output_writePin, if_pos rfl]
      dsimp only
      rw [hled, h.led]
      simp only [hodd, decide_not, Bool.xor_not]
  · have hnot : rounds % 50 ≠ 49 := by
      have hlt : ¬500 ≤ (s.heartbeatMs + loopPeriodMs).toNat := fun hle =>
        hfull (UInt16.le_iff_toNat_le.mpr hle)
      omega
    have hsame : (rounds + 1) / 50 = rounds / 50 := by omega
    refine ⟨hdebounce, ?_, ?_⟩
    · rw [heartbeat_debounce, hbeat]
      omega
    · rw [hled, h.led, hsame]

/-! ### Runs -/

/-- What the buttons of a round read. -/
def buttonSample (s : MotorSystem) : Event → Option MotorTestState
  | .loop => some (readButtonState s.board)
  | .pinChange _ => none

def Event.isLoop : Event → Bool
  | .loop => true
  | .pinChange _ => false

/-- What the buttons have read in the rounds of a run, with no button before. -/
def buttonHistory (b : Board) (run : List Event) : List MotorTestState :=
  List.replicate debounceSamples .stop ++ samples step buttonSample (start b) run

theorem debouncer_step (s : MotorSystem) (e : Event) :
    (step s e).debouncer =
      (buttonSample s e).elim s.debouncer (s.debouncer.sample debounceSamples) := by
  cases e with
  | pinChange p => rfl
  | loop =>
      rw [step, MotorSystem.loop]
      dsimp only
      have hdebounce (s' : MotorSystem) (x : MotorTestState) :
          (s'.debounce x).debouncer = s'.debouncer.sample debounceSamples x := by
        rw [debounce_eq]
        rfl
      split_ifs
      · exact hdebounce _ _
      · exact hdebounce _ _

theorem inv_start (b : Board) : Inv b 0 (start b) where
  stages w := stage_driveState .stop _ w
  reported := .opening
  heartbeat := rfl
  led := by
    have hstart (w : Wheel) (b : Board) : (drvHBridgeMotorStart (motorOf w) b).output statusLed =
        b.output statusLed := by
      rw [drvHBridgeMotorStart, drvPwmStart, Board.output_startCounter, led_coast,
        drvPwmSetDutyPermille]
      cases (motorOf w).pwm.polarity <;> rfl
    have hled : (start b).board.output statusLed = b.output statusLed :=
      (led_driveState .stop _).trans ((hstart .right _).trans (hstart .left b))
    simpa using hled

theorem inv_run (b : Board) (run : List Event) :
    Inv b (run.countP Event.isLoop) (exec step (start b) run) := by
  induction run using List.reverseRecOn with
  | nil => exact inv_start b
  | append_singleton run e ih =>
      rw [exec_append, List.countP_append]
      cases e with
      | loop => exact ih.loop
      | pinChange p => exact ⟨⟨ih.stages, ih.reported⟩, ih.heartbeat, ih.led⟩

/-- In every run, whatever the buttons do: there is a state that their readings have settled
on, the output stages show its duties, the reports tell every change up to it, and the LED
changes with every fiftieth round. -/
theorem motors_follow_buttons (b : Board) (run : List Event) :
    ∃ state, Settled debounceSamples (buttonHistory b run) state ∧
      (∀ w, stage (motorOf w) (exec step (start b) run).board =
        (Command.drive (state.duty w)).stage) ∧
      Reported state (exec step (start b) run).sent ∧
      (exec step (start b) run).board.output statusLed =
        (b.output statusLed ^^ decide (run.countP Event.isLoop / 50 % 2 = 1)) := by
  have hstart : (start b).debouncer.Follows debounceSamples
      (List.replicate debounceSamples .stop) :=
    Debouncer.follows_settled (by decide) MotorTestState.stop
  have hfollows := follows_run MotorSystem.debouncer debouncer_step hstart run
  have hinv := inv_run b run
  exact ⟨_, (hfollows.stable _).mpr rfl, hinv.stages, hinv.reported, hinv.led⟩

end NuedcFirmware.Tests.MotorTest
