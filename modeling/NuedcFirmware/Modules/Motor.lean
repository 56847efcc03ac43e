import NuedcFirmware.Platform.QuadEncoder

/-!
The motor module: the device layer `dev_motor.c` and the board binding
`bsp_motor.c`, with its command timeout.

`BspMotor` is the module's static state together with the board it drives.
Every entry point keeps `BspMotor.Coherent`: the configuration is the one bound
at start-up, and a motor whose recorded duty is 0 has its PWM off.
-/

namespace NuedcFirmware.Modules

open NuedcFirmware.Lib NuedcFirmware.Platform

/-! ### `dev_motor.c` -/

def devMotorDutyMaxDefault : ℤ := 1000

structure DevMotorConfig where
  output : DrvHBridgeMotor
  encoder : DrvQuadEncoderConfig
  maxDuty : ℤ
  hasEncoder : Bool

structure DevMotor where
  config : DevMotorConfig
  encoder : DrvQuadEncoder
  duty : ℤ
  started : Bool

namespace DevMotor

/-- `max_duty`. -/
def maxDuty (motor : DevMotor) : ℤ :=
  if motor.config.maxDuty ≤ 0 then devMotorDutyMaxDefault else motor.config.maxDuty

/-- `clamp_signed`. -/
def clampSigned (motor : DevMotor) (duty : ℤ) : ℤ :=
  let limit := motor.maxDuty
  if duty > limit then limit else if duty < -limit then -limit else duty

end DevMotor

def devMotorInit (config : DevMotorConfig) (b : Board) : DevMotor :=
  let config :=
    if config.maxDuty ≤ 0 then { config with maxDuty := devMotorDutyMaxDefault } else config
  let encoder :=
    if config.hasEncoder then drvQuadEncoderInit config.encoder b
    else { config := config.encoder, lastState := 0, delta := 0, total := 0 }
  { config, encoder, duty := 0, started := false }

def devMotorStart (motor : DevMotor) (b : Board) : DevMotor × Board :=
  let b := drvHBridgeMotorStart motor.config.output b
  let encoder :=
    if motor.config.hasEncoder then drvQuadEncoderReset b motor.encoder else motor.encoder
  ({ motor with duty := 0, encoder, started := true }, b)

def devMotorSetSignedDuty (duty : ℤ) (motor : DevMotor) (b : Board) : DevMotor × Board :=
  let duty := motor.clampSigned duty
  let motor := { motor with duty }
  if duty = 0 then (motor, drvHBridgeMotorCoast motor.config.output b)
  else (motor, drvHBridgeMotorSetSignedDuty motor.config.output duty b)

def devMotorBrake (motor : DevMotor) (b : Board) : DevMotor × Board :=
  ({ motor with duty := 0 }, drvHBridgeMotorBrake motor.config.output b)

def devMotorGetDuty (motor : DevMotor) : ℤ := motor.duty

/-! ### `bsp_motor.c` -/

def pwmMax : ℤ := 1000

def motorCommandTimeoutMs : UInt32 := 100

/-- `s_motor_config`, over the pins of `pin_map.h`. -/
def sMotorConfig : Wheel → DevMotorConfig
  | .left =>
      { output :=
          { pwm := { channel := .cc0, periodTicks := 1000, polarity := .activeLow }
            in1 := { pin := ⟨.gpioA, 15⟩, activeLow := false }
            in2 := { pin := ⟨.gpioA, 16⟩, activeLow := false }
            direction := -1 }
        encoder :=
          { phaseA := { pin := ⟨.gpioB, 15⟩, activeLow := false }
            phaseB := { pin := ⟨.gpioB, 16⟩, activeLow := false }
            direction := 1 }
        maxDuty := pwmMax
        hasEncoder := true }
  | .right =>
      { output :=
          { pwm := { channel := .cc1, periodTicks := 1000, polarity := .activeLow }
            in1 := { pin := ⟨.gpioA, 12⟩, activeLow := false }
            in2 := { pin := ⟨.gpioB, 23⟩, activeLow := false }
            direction := -1 }
        encoder :=
          { phaseA := { pin := ⟨.gpioB, 26⟩, activeLow := false }
            phaseB := { pin := ⟨.gpioB, 27⟩, activeLow := false }
            direction := 1 }
        maxDuty := pwmMax
        hasEncoder := true }

/-- The static state of the motor module and the board it drives. -/
structure BspMotor where
  motor : Wheel → DevMotor
  lastCommandMs : UInt32
  board : Board

/-- `motor_index`: channel 0 is the left motor, every other the right one. -/
def motorIndex (ch : ℕ) : Wheel :=
  if ch < 2 then (if ch = 0 then .left else .right) else .right

namespace BspMotor

/-- Run a device operation on one motor of the module. -/
def onMotor (s : BspMotor) (w : Wheel) (op : DevMotor → Board → DevMotor × Board) : BspMotor :=
  let r := op (s.motor w) s.board
  { s with motor := Function.update s.motor w r.1, board := r.2 }

def duty (s : BspMotor) (w : Wheel) : ℤ := devMotorGetDuty (s.motor w)

end BspMotor

/-- `BSP_Motor_Standby`: the driver's standby pin is tied to 3V3, so nothing is
done. -/
def bspMotorStandby (_on : Bool) (s : BspMotor) : BspMotor := s

/-- `refresh_standby`. -/
def refreshStandby (s : BspMotor) : BspMotor :=
  bspMotorStandby (s.duty .left ≠ 0 ∨ s.duty .right ≠ 0) s

def bspMotorInit (b : Board) : BspMotor :=
  let s : BspMotor :=
    { motor := fun w => devMotorInit (sMotorConfig w) b, lastCommandMs := 0, board := b }
  let s := s.onMotor .left devMotorStart
  let s := s.onMotor .right devMotorStart
  { bspMotorStandby false s with lastCommandMs := 0 }

def bspMotorSetSignedDuty (ch : ℕ) (duty : ℤ) (s : BspMotor) : BspMotor :=
  let idx := motorIndex ch
  let duty := if duty > pwmMax then pwmMax else duty
  let duty := if duty < -pwmMax then -pwmMax else duty
  let s := s.onMotor idx (devMotorSetSignedDuty duty)
  refreshStandby { s with lastCommandMs := drvTimeMillis s.board }

def bspMotorSetDuty (ch : ℕ) (duty : ℤ) (s : BspMotor) : BspMotor :=
  let duty := if duty > pwmMax then pwmMax else duty
  let duty := if duty < 0 then 0 else duty
  bspMotorSetSignedDuty ch duty s

def bspMotorBrake (ch : ℕ) (s : BspMotor) : BspMotor :=
  refreshStandby (s.onMotor (motorIndex ch) devMotorBrake)

def bspMotorSafetyTick (nowMs : UInt32) (s : BspMotor) : BspMotor :=
  if (s.duty .left ≠ 0 ∨ s.duty .right ≠ 0) ∧
      nowMs - s.lastCommandMs > motorCommandTimeoutMs then
    let s := s.onMotor .left (devMotorSetSignedDuty 0)
    let s := s.onMotor .right (devMotorSetSignedDuty 0)
    refreshStandby s
  else s

/-! ### What the entry points do -/

section DevMotor

variable (motor : DevMotor) (b : Board) (duty : ℤ)

@[simp] theorem config_devMotorSetSignedDuty :
    (devMotorSetSignedDuty duty motor b).1.config = motor.config := by
  unfold devMotorSetSignedDuty; dsimp only; split <;> rfl

@[simp] theorem duty_devMotorSetSignedDuty :
    (devMotorSetSignedDuty duty motor b).1.duty = motor.clampSigned duty := by
  unfold devMotorSetSignedDuty; dsimp only; split <;> rfl

theorem silent_devMotorSetSignedDuty (h : motor.clampSigned duty = 0) :
    motor.config.output.Silent (devMotorSetSignedDuty duty motor b).2 := by
  rw [devMotorSetSignedDuty, if_pos h]
  exact silent_drvHBridgeMotorCoast ..

/-- A motor on another PWM channel does not notice. -/
theorem onTime_devMotorSetSignedDuty_of_ne {motor' : DrvHBridgeMotor}
    (h : motor'.pwm.channel ≠ motor.config.output.pwm.channel) :
    motor'.pwm.onTime (devMotorSetSignedDuty duty motor b).2 = motor'.pwm.onTime b := by
  rw [devMotorSetSignedDuty]
  dsimp only
  split
  · exact onTime_drvHBridgeMotorCoast_of_ne h b
  · exact onTime_drvHBridgeMotorSetSignedDuty_of_ne h _ b

end DevMotor

@[simp] theorem gTickMs_devMotorSetSignedDuty (duty : ℤ) (motor : DevMotor) (b : Board) :
    (devMotorSetSignedDuty duty motor b).2.gTickMs = b.gTickMs := by
  rw [devMotorSetSignedDuty]
  dsimp only
  split <;> simp

@[simp] theorem input_devMotorSetSignedDuty (duty : ℤ) (motor : DevMotor) (b : Board) :
    (devMotorSetSignedDuty duty motor b).2.input = b.input := by
  rw [devMotorSetSignedDuty]
  dsimp only
  split <;> simp

/-- The two motors are on different PWM channels. -/
theorem sMotorConfig_channel_ne {w w' : Wheel} (h : w' ≠ w) :
    (sMotorConfig w').output.pwm.channel ≠ (sMotorConfig w).output.pwm.channel := by
  cases w <;> cases w' <;> first | exact absurd rfl h | decide

/-- Bound to the car's configuration, a motor clamps to the full scale. -/
theorem clampSigned_of_config {motor : DevMotor} {w : Wheel}
    (h : motor.config = sMotorConfig w) (duty : ℤ) :
    motor.clampSigned duty = max (-1000) (min duty 1000) := by
  have hmax : motor.maxDuty = 1000 := by
    rw [DevMotor.maxDuty, h]
    cases w <;> rfl
  simp only [DevMotor.clampSigned, hmax]
  split_ifs <;> omega

namespace BspMotor

/-- The PWM of the motor is never active. -/
def Silent (s : BspMotor) (w : Wheel) : Prop := (s.motor w).config.output.Silent s.board

/-- The configuration is the bound one, and a duty of 0 means the PWM is off. -/
structure Coherent (s : BspMotor) : Prop where
  config : ∀ w, (s.motor w).config = sMotorConfig w
  silent : ∀ w, s.duty w = 0 → s.Silent w

/-- Both motors are stopped: duty 0 and no active PWM. -/
def Stopped (s : BspMotor) : Prop := ∀ w, s.duty w = 0 ∧ s.Silent w

theorem Coherent.stopped {s : BspMotor} (h : s.Coherent) (hduty : ∀ w, s.duty w = 0) :
    s.Stopped := fun w => ⟨hduty w, h.silent w (hduty w)⟩

@[simp] theorem duty_onMotor (s : BspMotor) (w w' : Wheel)
    (op : DevMotor → Board → DevMotor × Board) :
    (s.onMotor w op).duty w' =
      if w' = w then (op (s.motor w) s.board).1.duty else s.duty w' := by
  by_cases h : w' = w
  · subst h
    simp [onMotor, duty, devMotorGetDuty]
  · simp [onMotor, duty, devMotorGetDuty, h]

@[simp] theorem lastCommandMs_onMotor (s : BspMotor) (w : Wheel)
    (op : DevMotor → Board → DevMotor × Board) :
    (s.onMotor w op).lastCommandMs = s.lastCommandMs := rfl

/-- A device operation keeps the module coherent when it keeps the motor's
configuration, turns the PWM off whenever it leaves a duty of 0, and leaves
motors on other channels alone. -/
theorem Coherent.onMotor {s : BspMotor} (h : s.Coherent) (w : Wheel)
    {op : DevMotor → Board → DevMotor × Board}
    (hconfig : ∀ m b, (op m b).1.config = m.config)
    (hsilent : ∀ m b, (op m b).1.duty = 0 → m.config.output.Silent (op m b).2)
    (hother : ∀ m b, ∀ motor' : DrvHBridgeMotor,
      motor'.pwm.channel ≠ m.config.output.pwm.channel →
        motor'.pwm.onTime (op m b).2 = motor'.pwm.onTime b) :
    (s.onMotor w op).Coherent where
  config w' := by
    by_cases hw : w' = w
    · subst hw
      simp [BspMotor.onMotor, hconfig, h.config]
    · simp [BspMotor.onMotor, hw, h.config]
  silent w' hduty := by
    by_cases hw : w' = w
    · subst hw
      rw [duty_onMotor, if_pos rfl] at hduty
      simpa [BspMotor.Silent, BspMotor.onMotor, hconfig] using hsilent _ _ hduty
    · rw [duty_onMotor, if_neg hw] at hduty
      have hne : (s.motor w').config.output.pwm.channel ≠
          (s.motor w).config.output.pwm.channel := by
        rw [h.config, h.config]
        exact sMotorConfig_channel_ne hw
      have hkept := hother (s.motor w) s.board _ hne
      have := h.silent w' hduty
      simpa [BspMotor.Silent, DrvHBridgeMotor.Silent, BspMotor.onMotor, hw, hkept] using this

theorem Coherent.withLastCommandMs {s : BspMotor} (h : s.Coherent) (t : UInt32) :
    BspMotor.Coherent { s with lastCommandMs := t } := ⟨h.config, h.silent⟩

theorem Coherent.onMotor_setSignedDuty {s : BspMotor} (h : s.Coherent) (w : Wheel) (duty : ℤ) :
    (s.onMotor w (devMotorSetSignedDuty duty)).Coherent :=
  h.onMotor w (fun m b => config_devMotorSetSignedDuty m b duty)
    (fun m b hduty => silent_devMotorSetSignedDuty m b duty (by simpa using hduty))
    (fun m b _ hne => onTime_devMotorSetSignedDuty_of_ne m b duty hne)

theorem Coherent.onMotor_brake {s : BspMotor} (h : s.Coherent) (w : Wheel) :
    (s.onMotor w devMotorBrake).Coherent :=
  h.onMotor w (fun _ _ => rfl) (fun m b _ => silent_drvHBridgeMotorBrake m.config.output b)
    (fun _ b _ hne => onTime_drvHBridgeMotorBrake_of_ne hne b)

theorem Coherent.clampSigned {s : BspMotor} (h : s.Coherent) (w : Wheel) (duty : ℤ) :
    (s.motor w).clampSigned duty = max (-1000) (min duty 1000) :=
  clampSigned_of_config (h.config w) duty

end BspMotor

@[simp] theorem refreshStandby_eq (s : BspMotor) : refreshStandby s = s := rfl

/-- What `BSP_Motor_Init` leaves on the board: both output stages started, the
left one first. -/
theorem board_bspMotorInit (b : Board) :
    (bspMotorInit b).board =
      drvHBridgeMotorStart (sMotorConfig .right).output
        (drvHBridgeMotorStart (sMotorConfig .left).output b) := rfl

theorem config_bspMotorInit (b : Board) (w : Wheel) :
    ((bspMotorInit b).motor w).config = sMotorConfig w := by
  cases w <;> rfl

theorem duty_bspMotorInit (b : Board) (w : Wheel) : (bspMotorInit b).duty w = 0 := by
  cases w <;> rfl

theorem coherent_bspMotorInit (b : Board) : (bspMotorInit b).Coherent where
  config := config_bspMotorInit b
  silent w _ := by
    rw [BspMotor.Silent, DrvHBridgeMotor.Silent, config_bspMotorInit, board_bspMotorInit]
    cases w with
    | left =>
        rw [onTime_drvHBridgeMotorStart_of_ne (sMotorConfig_channel_ne (by decide))]
        exact silent_drvHBridgeMotorStart ..
    | right => exact silent_drvHBridgeMotorStart ..

section EntryPoints

variable {s : BspMotor} (h : s.Coherent) (ch : ℕ) (duty : ℤ) (now : UInt32)

@[simp] theorem lastCommandMs_bspMotorSetSignedDuty :
    (bspMotorSetSignedDuty ch duty s).lastCommandMs = s.board.gTickMs := by
  simp [bspMotorSetSignedDuty, drvTimeMillis, BspMotor.onMotor]

@[simp] theorem lastCommandMs_bspMotorSetDuty :
    (bspMotorSetDuty ch duty s).lastCommandMs = s.board.gTickMs := by
  simp [bspMotorSetDuty]

@[simp] theorem gTickMs_bspMotorSetSignedDuty :
    (bspMotorSetSignedDuty ch duty s).board.gTickMs = s.board.gTickMs := by
  simp [bspMotorSetSignedDuty, BspMotor.onMotor]

@[simp] theorem gTickMs_bspMotorSetDuty :
    (bspMotorSetDuty ch duty s).board.gTickMs = s.board.gTickMs := by
  simp [bspMotorSetDuty]

@[simp] theorem gTickMs_bspMotorBrake :
    (bspMotorBrake ch s).board.gTickMs = s.board.gTickMs := by
  simp [bspMotorBrake, BspMotor.onMotor, devMotorBrake]

@[simp] theorem input_bspMotorSetDuty : (bspMotorSetDuty ch duty s).board.input = s.board.input := by
  simp [bspMotorSetDuty, bspMotorSetSignedDuty, BspMotor.onMotor]

@[simp] theorem lastCommandMs_bspMotorBrake :
    (bspMotorBrake ch s).lastCommandMs = s.lastCommandMs := rfl

include h

theorem coherent_bspMotorSetSignedDuty : (bspMotorSetSignedDuty ch duty s).Coherent := by
  rw [bspMotorSetSignedDuty, refreshStandby_eq]
  exact (h.onMotor_setSignedDuty _ _).withLastCommandMs _

theorem coherent_bspMotorSetDuty : (bspMotorSetDuty ch duty s).Coherent :=
  coherent_bspMotorSetSignedDuty h ch _

theorem coherent_bspMotorBrake : (bspMotorBrake ch s).Coherent :=
  h.onMotor_brake _

theorem coherent_bspMotorSafetyTick : (bspMotorSafetyTick now s).Coherent := by
  rw [bspMotorSafetyTick]
  split
  · exact (h.onMotor_setSignedDuty .left 0).onMotor_setSignedDuty .right 0
  · exact h

/-- A signed command clamps to the full scale and reaches one motor only. -/
theorem duty_bspMotorSetSignedDuty (w : Wheel) :
    (bspMotorSetSignedDuty ch duty s).duty w =
      if w = motorIndex ch then max (-1000) (min duty 1000) else s.duty w := by
  have hduty := BspMotor.duty_onMotor s (motorIndex ch) w
    (devMotorSetSignedDuty (if (if duty > pwmMax then pwmMax else duty) < -pwmMax then -pwmMax
      else if duty > pwmMax then pwmMax else duty))
  rw [duty_devMotorSetSignedDuty, h.clampSigned] at hduty
  refine Eq.trans ?_ (hduty.trans ?_)
  · rfl
  · simp only [pwmMax]
    split_ifs <;> omega

/-- A forward command clamps negative duties to 0 as well. -/
theorem duty_bspMotorSetDuty (w : Wheel) :
    (bspMotorSetDuty ch duty s).duty w =
      if w = motorIndex ch then max 0 (min duty 1000) else s.duty w := by
  rw [bspMotorSetDuty, duty_bspMotorSetSignedDuty h]
  simp only [pwmMax]
  split_ifs <;> omega

omit h in
theorem duty_bspMotorBrake (w : Wheel) :
    (bspMotorBrake ch s).duty w = if w = motorIndex ch then 0 else s.duty w :=
  BspMotor.duty_onMotor ..

/-- The safety tick stops both motors, or does nothing at all. -/
theorem bspMotorSafetyTick_cases :
    (∀ w, (bspMotorSafetyTick now s).duty w = 0) ∧
        (bspMotorSafetyTick now s).lastCommandMs = s.lastCommandMs ∧
        motorCommandTimeoutMs < now - s.lastCommandMs ∨
      bspMotorSafetyTick now s = s ∧
        ((∀ w, s.duty w = 0) ∨ now - s.lastCommandMs ≤ motorCommandTimeoutMs) := by
  rw [bspMotorSafetyTick]
  split
  case isTrue hlate =>
    refine Or.inl ⟨fun w => ?_, rfl, hlate.2⟩
    have hleft := h.onMotor_setSignedDuty .left 0
    rw [refreshStandby_eq, BspMotor.duty_onMotor, BspMotor.duty_onMotor,
      duty_devMotorSetSignedDuty, duty_devMotorSetSignedDuty, hleft.clampSigned, h.clampSigned]
    cases w <;> simp
  case isFalse hkeep =>
    refine Or.inr ⟨rfl, ?_⟩
    by_cases hlate : now - s.lastCommandMs > motorCommandTimeoutMs
    · left
      intro w
      by_contra hw
      exact hkeep ⟨by cases w <;> simp [hw], hlate⟩
    · right
      exact UInt32.not_lt.mp hlate

end EntryPoints

end NuedcFirmware.Modules
