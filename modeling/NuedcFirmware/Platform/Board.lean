import NuedcFirmware.Lib.MachineInt
import Mathlib.Logic.Function.Basic

/-!
The MSPM0G3507 board as the drivers see it: the GPIO ports, the capture/compare
registers of the motor timer, and the drivers over them (`drv_gpio.c`,
`drv_pwm.c`, `drv_hbridge_motor.c`) with the pin map of `pin_map.h`.

The drivers check their pointer arguments for null; every pointer passed to
them here is the address of a static object, so those branches are not part of
the model.
-/

namespace NuedcFirmware.Platform

open NuedcFirmware.Lib

/-- The two GPIO ports. -/
inductive GpioPort
  | gpioA
  | gpioB
  deriving DecidableEq, Repr

/-- One pin: its port and the number of its bit (`DL_GPIO_PIN_15` is 15). -/
structure Pin where
  port : GpioPort
  bit : ℕ
  deriving DecidableEq, Repr

/-- The two sides of the car. -/
inductive Wheel
  | left
  | right
  deriving DecidableEq, Repr

/-- The capture/compare channels of the motor timer TIMA0. -/
inductive CcIndex
  | cc0
  | cc1
  deriving DecidableEq, Repr

/-- The hardware state: level of each output pin, level at each input pin,
pending edge interrupts of the input pins, compare registers and run bit of
the motor timer; and the variable `g_tick_ms` of `main.c`, which is all the
time driver reads. -/
structure Board where
  output : Pin → Bool
  input : Pin → Bool
  edgeStatus : Pin → Bool
  compare : CcIndex → ℕ
  counting : Bool
  gTickMs : UInt32

namespace Board

/-- A board out of reset: every level low, nothing pending, the timer stopped. -/
def atReset : Board where
  output _ := false
  input _ := false
  edgeStatus _ := false
  compare _ := 0
  counting := false
  gTickMs := 0

def writePin (b : Board) (pin : Pin) (high : Bool) : Board :=
  { b with output := Function.update b.output pin high }

/-- `DL_Timer_setCaptureCompareValue`. -/
def setCompare (b : Board) (cc : CcIndex) (value : ℕ) : Board :=
  { b with compare := Function.update b.compare cc value }

/-- `DL_Timer_startCounter`. -/
def startCounter (b : Board) : Board := { b with counting := true }

section Frame

variable (b : Board) (pin : Pin) (high : Bool) (cc : CcIndex) (value : ℕ)

@[simp] theorem output_writePin (p : Pin) :
    (b.writePin pin high).output p = if p = pin then high else b.output p := by
  simp [writePin, Function.update_apply]

@[simp] theorem input_writePin : (b.writePin pin high).input = b.input := rfl
@[simp] theorem edgeStatus_writePin : (b.writePin pin high).edgeStatus = b.edgeStatus := rfl
@[simp] theorem compare_writePin : (b.writePin pin high).compare = b.compare := rfl
@[simp] theorem gTickMs_writePin : (b.writePin pin high).gTickMs = b.gTickMs := rfl

@[simp] theorem compare_setCompare (c : CcIndex) :
    (b.setCompare cc value).compare c = if c = cc then value else b.compare c := by
  simp [setCompare, Function.update_apply]

@[simp] theorem output_setCompare : (b.setCompare cc value).output = b.output := rfl
@[simp] theorem input_setCompare : (b.setCompare cc value).input = b.input := rfl
@[simp] theorem edgeStatus_setCompare :
    (b.setCompare cc value).edgeStatus = b.edgeStatus := rfl
@[simp] theorem gTickMs_setCompare : (b.setCompare cc value).gTickMs = b.gTickMs := rfl

@[simp] theorem output_startCounter : b.startCounter.output = b.output := rfl
@[simp] theorem input_startCounter : b.startCounter.input = b.input := rfl
@[simp] theorem edgeStatus_startCounter : b.startCounter.edgeStatus = b.edgeStatus := rfl
@[simp] theorem gTickMs_startCounter : b.startCounter.gTickMs = b.gTickMs := rfl
@[simp] theorem compare_startCounter : b.startCounter.compare = b.compare := rfl

end Frame

end Board

/-! ### `drv_time.c` -/

def drvTimeMillis (b : Board) : UInt32 := b.gTickMs

/-! ### `drv_gpio.c` -/

structure DrvGpioPin where
  pin : Pin
  activeLow : Bool

def drvGpioWriteRaw (pin : DrvGpioPin) (high : Bool) (b : Board) : Board :=
  b.writePin pin.pin high

def drvGpioReadRaw (pin : DrvGpioPin) (b : Board) : Bool := b.input pin.pin

def drvGpioReadActive (pin : DrvGpioPin) (b : Board) : Bool :=
  let high := drvGpioReadRaw pin b
  if pin.activeLow then !high else high

/-! ### `drv_pwm.c` -/

inductive DrvPwmPolarity
  | activeHigh
  | activeLow
  deriving DecidableEq, Repr

structure DrvPwmChannel where
  channel : CcIndex
  periodTicks : ℕ
  polarity : DrvPwmPolarity

def drvPwmDutyMax : ℕ := 1000

def drvPwmStart (_pwm : DrvPwmChannel) (b : Board) : Board := b.startCounter

def drvPwmSetCompareRaw (pwm : DrvPwmChannel) (compare : ℕ) (b : Board) : Board :=
  b.setCompare pwm.channel compare

def drvPwmSetDutyPermille (pwm : DrvPwmChannel) (duty : ℕ) (b : Board) : Board :=
  let dutyClamped := min duty drvPwmDutyMax
  let compare := pwm.periodTicks * dutyClamped / drvPwmDutyMax
  match pwm.polarity with
  | .activeLow => drvPwmSetCompareRaw pwm (pwm.periodTicks - compare) b
  | .activeHigh => drvPwmSetCompareRaw pwm compare b

/-- How many ticks of each period the output of the channel is active. -/
def DrvPwmChannel.onTime (pwm : DrvPwmChannel) (b : Board) : ℕ :=
  match pwm.polarity with
  | .activeLow => pwm.periodTicks - b.compare pwm.channel
  | .activeHigh => b.compare pwm.channel

@[simp] theorem onTime_drvPwmSetDutyPermille_zero (pwm : DrvPwmChannel) (b : Board) :
    pwm.onTime (drvPwmSetDutyPermille pwm 0 b) = 0 := by
  rw [DrvPwmChannel.onTime, drvPwmSetDutyPermille]
  cases pwm.polarity <;> simp [drvPwmSetCompareRaw]

/-- Setting one channel leaves the other one alone. -/
theorem onTime_drvPwmSetDutyPermille_of_ne {pwm pwm' : DrvPwmChannel}
    (h : pwm'.channel ≠ pwm.channel) (duty : ℕ) (b : Board) :
    pwm'.onTime (drvPwmSetDutyPermille pwm duty b) = pwm'.onTime b := by
  unfold DrvPwmChannel.onTime drvPwmSetDutyPermille
  cases pwm.polarity <;> simp [drvPwmSetCompareRaw, h]

@[simp] theorem input_drvPwmSetDutyPermille (pwm : DrvPwmChannel) (duty : ℕ) (b : Board) :
    (drvPwmSetDutyPermille pwm duty b).input = b.input := by
  rw [drvPwmSetDutyPermille]
  cases pwm.polarity <;> rfl

@[simp] theorem gTickMs_drvPwmSetDutyPermille (pwm : DrvPwmChannel) (duty : ℕ) (b : Board) :
    (drvPwmSetDutyPermille pwm duty b).gTickMs = b.gTickMs := by
  rw [drvPwmSetDutyPermille]
  cases pwm.polarity <;> rfl

/-! ### `drv_hbridge_motor.c` -/

structure DrvHBridgeMotor where
  pwm : DrvPwmChannel
  in1 : DrvGpioPin
  in2 : DrvGpioPin
  direction : ℤ

def hbridgeDutyMax : ℤ := 1000

/-- `clamp_duty`. -/
def clampDuty (duty : ℤ) : ℤ :=
  if duty > hbridgeDutyMax then hbridgeDutyMax
  else if duty < -hbridgeDutyMax then -hbridgeDutyMax
  else duty

def drvHBridgeMotorCoast (motor : DrvHBridgeMotor) (b : Board) : Board :=
  b |> drvPwmSetDutyPermille motor.pwm 0
    |> drvGpioWriteRaw motor.in1 false
    |> drvGpioWriteRaw motor.in2 false

def drvHBridgeMotorBrake (motor : DrvHBridgeMotor) (b : Board) : Board :=
  b |> drvPwmSetDutyPermille motor.pwm 0
    |> drvGpioWriteRaw motor.in1 true
    |> drvGpioWriteRaw motor.in2 true

def drvHBridgeMotorStart (motor : DrvHBridgeMotor) (b : Board) : Board :=
  b |> drvPwmSetDutyPermille motor.pwm 0
    |> drvHBridgeMotorCoast motor
    |> drvPwmStart motor.pwm

/-- The duty as the bridge is wired: a negative `direction` swaps its sides. -/
def DrvHBridgeMotor.wired (motor : DrvHBridgeMotor) (duty : ℤ) : ℤ :=
  let direction := if motor.direction = 0 then 1 else motor.direction
  if direction < 0 then -duty else duty

def drvHBridgeMotorSetSignedDuty (motor : DrvHBridgeMotor) (duty : ℤ) (b : Board) : Board :=
  let duty := clampDuty duty
  if duty = 0 then drvHBridgeMotorCoast motor b
  else if motor.wired duty > 0 then
    b |> drvGpioWriteRaw motor.in1 false
      |> drvGpioWriteRaw motor.in2 true
      |> drvPwmSetDutyPermille motor.pwm (motor.wired duty).toNat
  else
    b |> drvGpioWriteRaw motor.in1 true
      |> drvGpioWriteRaw motor.in2 false
      |> drvPwmSetDutyPermille motor.pwm (-motor.wired duty).toNat

/-- The output stage gives the motor no current: the PWM is never active. -/
def DrvHBridgeMotor.Silent (motor : DrvHBridgeMotor) (b : Board) : Prop :=
  motor.pwm.onTime b = 0

@[simp] theorem onTime_drvGpioWriteRaw (pwm : DrvPwmChannel) (pin : DrvGpioPin)
    (high : Bool) (b : Board) : pwm.onTime (drvGpioWriteRaw pin high b) = pwm.onTime b := rfl

@[simp] theorem input_drvGpioWriteRaw (pin : DrvGpioPin) (high : Bool) (b : Board) :
    (drvGpioWriteRaw pin high b).input = b.input := rfl

@[simp] theorem gTickMs_drvGpioWriteRaw (pin : DrvGpioPin) (high : Bool) (b : Board) :
    (drvGpioWriteRaw pin high b).gTickMs = b.gTickMs := rfl

@[simp] theorem gTickMs_drvHBridgeMotorCoast (motor : DrvHBridgeMotor) (b : Board) :
    (drvHBridgeMotorCoast motor b).gTickMs = b.gTickMs := by
  simp [drvHBridgeMotorCoast]

@[simp] theorem gTickMs_drvHBridgeMotorBrake (motor : DrvHBridgeMotor) (b : Board) :
    (drvHBridgeMotorBrake motor b).gTickMs = b.gTickMs := by
  simp [drvHBridgeMotorBrake]

@[simp] theorem gTickMs_drvHBridgeMotorSetSignedDuty (motor : DrvHBridgeMotor) (duty : ℤ)
    (b : Board) : (drvHBridgeMotorSetSignedDuty motor duty b).gTickMs = b.gTickMs := by
  unfold drvHBridgeMotorSetSignedDuty
  dsimp only
  split
  · simp
  · split <;> simp

@[simp] theorem input_drvHBridgeMotorCoast (motor : DrvHBridgeMotor) (b : Board) :
    (drvHBridgeMotorCoast motor b).input = b.input := by
  simp [drvHBridgeMotorCoast]

@[simp] theorem input_drvHBridgeMotorSetSignedDuty (motor : DrvHBridgeMotor) (duty : ℤ)
    (b : Board) : (drvHBridgeMotorSetSignedDuty motor duty b).input = b.input := by
  unfold drvHBridgeMotorSetSignedDuty
  dsimp only
  split
  · simp
  · split <;> simp

theorem silent_drvHBridgeMotorCoast (motor : DrvHBridgeMotor) (b : Board) :
    motor.Silent (drvHBridgeMotorCoast motor b) := by
  simp [DrvHBridgeMotor.Silent, drvHBridgeMotorCoast]

theorem silent_drvHBridgeMotorBrake (motor : DrvHBridgeMotor) (b : Board) :
    motor.Silent (drvHBridgeMotorBrake motor b) := by
  simp [DrvHBridgeMotor.Silent, drvHBridgeMotorBrake]

theorem silent_drvHBridgeMotorStart (motor : DrvHBridgeMotor) (b : Board) :
    motor.Silent (drvHBridgeMotorStart motor b) :=
  silent_drvHBridgeMotorCoast motor (drvPwmSetDutyPermille motor.pwm 0 b)

section OtherMotor

variable {motor motor' : DrvHBridgeMotor} (h : motor'.pwm.channel ≠ motor.pwm.channel)
include h

theorem onTime_drvHBridgeMotorCoast_of_ne (b : Board) :
    motor'.pwm.onTime (drvHBridgeMotorCoast motor b) = motor'.pwm.onTime b := by
  simp [drvHBridgeMotorCoast, onTime_drvPwmSetDutyPermille_of_ne h]

theorem onTime_drvHBridgeMotorBrake_of_ne (b : Board) :
    motor'.pwm.onTime (drvHBridgeMotorBrake motor b) = motor'.pwm.onTime b := by
  simp [drvHBridgeMotorBrake, onTime_drvPwmSetDutyPermille_of_ne h]

theorem onTime_drvHBridgeMotorStart_of_ne (b : Board) :
    motor'.pwm.onTime (drvHBridgeMotorStart motor b) = motor'.pwm.onTime b := by
  have hstart (c : Board) : motor'.pwm.onTime (drvPwmStart motor.pwm c) = motor'.pwm.onTime c := rfl
  rw [drvHBridgeMotorStart, hstart, onTime_drvHBridgeMotorCoast_of_ne h,
    onTime_drvPwmSetDutyPermille_of_ne h]

theorem onTime_drvHBridgeMotorSetSignedDuty_of_ne (duty : ℤ) (b : Board) :
    motor'.pwm.onTime (drvHBridgeMotorSetSignedDuty motor duty b) = motor'.pwm.onTime b := by
  unfold drvHBridgeMotorSetSignedDuty
  dsimp only
  split
  · exact onTime_drvHBridgeMotorCoast_of_ne h b
  · split <;> rw [onTime_drvPwmSetDutyPermille_of_ne h] <;> simp

end OtherMotor

end NuedcFirmware.Platform
