import NuedcFirmware.App.ControlInputs
import NuedcFirmware.App.LastCommand
import NuedcFirmware.App.SteeringBound
import NuedcFirmware.Lib.Trace

/-!
What a run remembers of the runs before it.

A start resets the odometry and the encoders. It resets neither the filter of the line
sensor nor the line PID nor a direct duty test, and these are all that remains
(`Memory`): the error that the PID remembers is that of the filtered bias (`LineWired`). Two
states with the same memory behave alike from a start on (`Alike.tick`), in the machine and
in runs of the whole system (`outputs_eq_trace`), for which the arithmetic need only hide
what it multiplies by 0. Two states with different ones are told apart, in exact arithmetic,
by the start with the line under one of two channels, or by a stop after it.
-/

namespace NuedcFirmware.App.RunIndependence

open NuedcFirmware.Lib NuedcFirmware.Platform NuedcFirmware.Common NuedcFirmware.Modules
open NuedcFirmware.Control NuedcFirmware.App.DutyHold NuedcFirmware.App.SteeringBound

/-- What a start leaves of the past: whether the bias filter is primed, the filtered bias,
and the duties that a direct duty test would apply, by the time. -/
structure Memory (F : Type*) where
  primed : Bool
  bias : F
  applied : UInt32 → Wheel → ℤ

variable {F : Type*}

def memory (fw : Firmware F) : Memory F where
  primed := fw.lineSensor.biasPrimed
  bias := fw.lineSensor.frame.bias
  applied := applied fw.ctx.chassis.direct

variable [CMath F]

/-- No inputs from a start on tell the two states apart. -/
def Independent (fw fw' : Firmware F) : Prop :=
  ∀ i is, i.start = true → i.imuReady = true →
    trace tick output fw (i :: is) = trace tick output fw' (i :: is)

/-! ### The line sensor -/

/-- The configuration of the car's line sensor when it reads the given values, or the levels
of its channels. -/
def carConfig (raw : Option (List ℕ)) : DevLineSensorConfig F :=
  { sLineSensorConfig with readRaw := raw.map fun raw _ _ => raw }

/-- Two line sensors of the car with the same readings and the same filter. -/
structure SameFilter (raw : Option (List ℕ)) (s s' : DevLineSensor F) : Prop where
  config : s.config = carConfig raw
  config' : s'.config = carConfig raw
  primed : s.biasPrimed = s'.biasPrimed
  bias : s.frame.bias = s'.frame.bias
  lastBias : s.frame.lastBias = s'.frame.lastBias

theorem getCount_car_ne_zero {raw : Option (List ℕ)} {sensor : DevLineSensor F}
    (h : sensor.config = carConfig raw) : DevLineSensor.getCount sensor.config ≠ 0 := by
  have hcount : DevLineSensor.getCount sensor.config = bspAdcCcdCount := by
    rw [h]
    rfl
  rw [hcount]
  decide

section Sensor

variable {raw : Option (List ℕ)} {s s' : DevLineSensor F} (h : SameFilter raw s s')
  {b b' : Board} (hb : b.input = b'.input)
include h hb

theorem sample_congr : s.sample b = s'.sample b' := by
  have hactive : sLineSensors.active b = sLineSensors.active b' := by
    funext i
    simp only [DrvLineSensorArray.active, drvGpioReadActive, drvGpioReadRaw, hb]
  have hbits : drvLineSensorReadBits sLineSensors b = drvLineSensorReadBits sLineSensors b' := by
    simp only [drvLineSensorReadBits, hactive]
  have hreadings : s.readings b = s'.readings b' := by
    rw [DevLineSensor.readings, DevLineSensor.readings, h.config, h.config']
    cases raw with
    | some raw => rfl
    | none =>
        show drvLineSensorReadRaw sLineSensors b _ = drvLineSensorReadRaw sLineSensors b' _
        simp only [drvLineSensorReadRaw, hactive]
  have harray : (carConfig raw : DevLineSensorConfig F).array = some sLineSensors := rfl
  simp only [DevLineSensor.sample, hreadings, h.config, h.config', h.bias, h.lastBias, harray,
    hbits]

/-- Under the same levels they go on with the same filter and see the same frame. -/
theorem update_congr :
    SameFilter raw (devLineSensorUpdate s b) (devLineSensorUpdate s' b') ∧
      (devLineSensorUpdate s b).frame = (devLineSensorUpdate s' b').frame := by
  have hfilter : s.filterBias (s'.sample b').rawBias = s'.filterBias (s'.sample b').rawBias := by
    rw [DevLineSensor.filterBias, DevLineSensor.filterBias, h.primed, h.bias, h.config, h.config']
  have hframe : (devLineSensorUpdate s b).frame = (devLineSensorUpdate s' b').frame := by
    rw [devLineSensorUpdate_eq s b (getCount_car_ne_zero h.config),
      devLineSensorUpdate_eq s' b' (getCount_car_ne_zero h.config'), sample_congr h hb, hfilter]
    split_ifs <;> rfl
  refine ⟨⟨?_, ?_, ?_, congrArg _ hframe, congrArg _ hframe⟩, hframe⟩
  · rw [config_devLineSensorUpdate, h.config]
  · rw [config_devLineSensorUpdate, h.config']
  · rw [devLineSensorUpdate_eq s b (getCount_car_ne_zero h.config),
      devLineSensorUpdate_eq s' b' (getCount_car_ne_zero h.config'), sample_congr h hb]
    split_ifs
    · rfl
    · exact h.primed

end Sensor

/-! ### The line tracker -/

/-- Line PID and line sensor as they are found in every state: the error that the PID
remembers is that of the filtered bias. -/
structure LineWired (pid : PID F) (sensor : DevLineSensor F) : Prop where
  tuning : pid.SameTuning initialLinePid
  config : ∃ raw, sensor.config = carConfig raw
  remembers : pid.prevErr = 0.0 - sensor.frame.bias
  held : sensor.frame.lastBias = sensor.frame.bias

/-- In exact arithmetic, also the bounds of the steering, and a filter that is not primed has
seen no bias. -/
structure LineExact (pid : PID ℝ) (sensor : DevLineSensor ℝ) : Prop
    extends LineWired pid sensor where
  tame : Tame pid
  normalised : Normalised sensor
  unprimed : sensor.biasPrimed = false → sensor.frame.bias = 0

section Tracker

variable {pid pid' : PID F} {sensor sensor' : DevLineSensor F}

theorem lineWired_update (h : LineWired pid sensor) (b : Board) :
    LineWired (controlLineTrackerUpdate pid sensor b).2.1
      (controlLineTrackerUpdate pid sensor b).2.2 := by
  obtain ⟨raw, hraw⟩ := h.config
  rw [sensor_controlLineTrackerUpdate]
  have hconfig := (config_devLineSensorUpdate sensor b).trans hraw
  have hheld := (bias_eq_lastBias sensor b (getCount_car_ne_zero hraw)).symm
  cases honline : (devLineSensorUpdate sensor b).frame.onLine with
  | true =>
      rw [controlLineTrackerUpdate_of_onLine honline]
      exact ⟨(sameTuning_pidUpdate ..).trans h.tuning, ⟨raw, hconfig⟩, prevErr_pidUpdate .., hheld⟩
  | false =>
      have hkept := lastBias_of_lost honline
      rw [controlLineTrackerUpdate_of_lost honline]
      refine ⟨h.tuning, ⟨raw, hconfig⟩, ?_, hheld⟩
      rw [h.remembers, ← hheld, hkept, h.held]

theorem lineExact_update {pid : PID ℝ} {sensor : DevLineSensor ℝ} (h : LineExact pid sensor)
    (b : Board) :
    LineExact (controlLineTrackerUpdate pid sensor b).2.1
      (controlLineTrackerUpdate pid sensor b).2.2 := by
  obtain ⟨-, htame, hnormalised⟩ := track_bounds h.tame h.normalised b
  obtain ⟨raw, hraw⟩ := h.config
  refine ⟨lineWired_update h.toLineWired b, htame, hnormalised, ?_⟩
  rw [sensor_controlLineTrackerUpdate]
  intro hunprimed
  rw [devLineSensorUpdate_eq sensor b (getCount_car_ne_zero hraw)] at hunprimed ⊢
  split_ifs at hunprimed ⊢
  exact h.held.trans (h.unprimed hunprimed)

/-- The same filter gives the same turn. -/
theorem turn_congr [CFloat.Zero F] {raw : Option (List ℕ)} (h : LineWired pid sensor)
    (h' : LineWired pid' sensor') (hsame : SameFilter raw sensor sensor') {b b' : Board}
    (hb : b.input = b'.input) :
    (controlLineTrackerUpdate pid sensor b).1 = (controlLineTrackerUpdate pid' sensor' b').1 := by
  obtain ⟨-, hframe⟩ := update_congr hsame hb
  cases honline : (devLineSensorUpdate sensor b).frame.onLine with
  | true =>
      rw [controlLineTrackerUpdate_of_onLine honline,
        controlLineTrackerUpdate_of_onLine (hframe ▸ honline), hframe]
      have hprev : pid.prevErr = pid'.prevErr := by rw [h.remembers, h'.remembers, hsame.bias]
      exact fst_pidUpdate_congr (h.tuning.trans h'.tuning.symm) h'.tuning.ki (Or.inr hprev) _ _
  | false =>
      rw [controlLineTrackerUpdate_of_lost honline,
        controlLineTrackerUpdate_of_lost (hframe ▸ honline), hframe]

end Tracker

/-! ### Every state -/

/-- What holds in every state of the system. -/
structure Wired (fw : Firmware F) : Prop where
  coherent : fw.motor.Coherent
  setup : SameSetup fw.ctx.chassis carChassis
  line : LineWired fw.ctx.linePid fw.lineSensor

theorem wired_appInit [CFloat.Zero F] (b : Board) : Wired (appInit b : Firmware F) where
  coherent := coherent_appInit b
  setup := ⟨rfl, ⟨rfl, rfl, rfl, rfl, rfl⟩, ⟨rfl, rfl, rfl, rfl, rfl⟩, rfl, rfl⟩
  line := ⟨⟨rfl, rfl, rfl, rfl, rfl⟩, ⟨none, rfl⟩, CFloat.Zero.zero_sub_zero.symm, rfl⟩

theorem lineExact_appInit (b : Board) :
    LineExact (appInit b : Firmware ℝ).ctx.linePid (appInit b : Firmware ℝ).lineSensor where
  toLineWired := (wired_appInit b).line
  tame := tame_initialLinePid
  normalised := normalised_empty rfl
  unprimed _ := by
    show (0.0 : ℝ) = 0
    norm_num

section Steps

variable {fw : Firmware F}

/-- What the tracker keeps of line PID and line sensor, every step keeps. -/
theorem line_step {P : PID F → DevLineSensor F → Prop}
    (hupdate : ∀ pid sensor b, P pid sensor →
      P (controlLineTrackerUpdate pid sensor b).2.1 (controlLineTrackerUpdate pid sensor b).2.2)
    (h : P fw.ctx.linePid fw.lineSensor) (e : Event F) :
    P (App.step fw e).ctx.linePid (App.step fw e).lineSensor := by
  by_cases hcontrol : ∃ nowMs, e = .control nowMs
  · obtain ⟨nowMs, rfl⟩ := hcontrol
    show P (controlTask nowMs fw).ctx.linePid (controlTask nowMs fw).lineSensor
    rw [linePid_controlTask, lineSensor_controlTask]
    split_ifs
    · exact hupdate _ _ _ h
    · exact h
  · obtain ⟨hsteering, -⟩ := keeps_step fw (not_exists.mp hcontrol)
    have hpid := congrArg Steering.linePid hsteering
    have hsensor := congrArg Steering.lineSensor hsteering
    show P (steering (App.step fw e)).linePid (steering (App.step fw e)).lineSensor
    rw [hpid, hsensor]
    exact h

theorem wired_step (h : Wired fw) (e : Event F) : Wired (App.step fw e) where
  coherent := coherent_step h.coherent e
  setup := (setup_step fw e).trans h.setup
  line := line_step (P := LineWired) (fun _ _ b h => lineWired_update h b) h.line e

variable (h : Wired fw)
include h

theorem config_feed (i : TickInput) : (feed i fw).lineSensor.config = carConfig i.raw := by
  obtain ⟨raw, hraw⟩ := h.line.config
  show { fw.lineSensor.config with readRaw := i.raw.map fun raw _ _ => raw } = carConfig i.raw
  rw [hraw]
  rfl

theorem wired_feed (i : TickInput) : Wired (feed i fw) where
  coherent := ⟨h.coherent.config, h.coherent.silent⟩
  setup := h.setup
  line := ⟨h.line.tuning, ⟨i.raw, config_feed h i⟩, h.line.remembers, h.line.held⟩

theorem wired_tick (i : TickInput) : Wired (tick fw i) :=
  wired_step (wired_feed h i) (.control i.nowMs)

end Steps

theorem wired_exec [CFloat.Zero F] (b : Board) (history : List (Event F)) :
    Wired (exec App.step (appInit b) history) :=
  exec_invariant (I := Wired) (fun _ e h => wired_step h e) (wired_appInit b) history

theorem lineExact_exec (b : Board) (history : List (Event ℝ)) :
    LineExact (exec App.step (appInit b) history).ctx.linePid
      (exec App.step (appInit b) history).lineSensor :=
  exec_invariant (I := fun fw : Firmware ℝ => LineExact fw.ctx.linePid fw.lineSensor)
    (fun _ e h => line_step (P := LineExact) (fun _ _ b h => lineExact_update h b) h e)
    (lineExact_appInit b) history

/-! ### One iteration -/

/-- Whether a test is over when it has been looked at, is seen from what it applied. -/
theorem applied_looked (d : DirectDuty) (nowMs : UInt32) :
    applied (looked d nowMs) =
      if applied d nowMs .left = 0 ∧ applied d nowMs .right = 0 then fun _ _ => 0
      else applied d := by
  rw [looked]
  by_cases hover : d.active = true ∧ d.deadlineMs ≤ nowMs
  · have hzero : ∀ w, applied d nowMs w = 0 := fun w =>
      if_neg fun hlive => UInt32.not_lt.mpr hover.2 hlive.2
    rw [if_pos hover, if_pos ⟨hzero .left, hzero .right⟩]
    rfl
  · rw [if_neg hover]
    split_ifs with hzero
    · -- a test that is on has the duties 0 then, and one that is not applies nothing
      funext t w
      rw [applied]
      split_ifs with hlive
      · have hnow : nowMs < d.deadlineMs := UInt32.not_le.mp fun hle => hover ⟨hlive.1, hle⟩
        have happlied : applied d nowMs w = max 0 (min (d.duty w) 1000) := if_pos ⟨hlive.1, hnow⟩
        cases w with
        | left => exact happlied.symm.trans hzero.1
        | right => exact happlied.symm.trans hzero.2
      · rfl
    · rfl

section Tick

variable (fw : Firmware F) (i : TickInput)

omit [CMath F] in
theorem nextState_feed :
    nextState (feed i fw) =
      if i.duty.isSome then .idle
      else if i.start = true ∧ i.imuReady = true then .run
      else if i.stop then .idle
      else fw.ctx.state := rfl

omit [CMath F] in
theorem pendingPulses_feed (w : Wheel) : pendingPulses (feed i fw).encoder w = i.delta w :=
  add_sub_cancel_left _ _

omit [CMath F] in
/-- The test that a request sets, else the one before. -/
theorem applied_nextDirect_feed :
    applied (nextDirect i.nowMs (feed i fw)) =
      match i.duty with
      | some request => applied (testOf i.nowMs request)
      | none => applied fw.ctx.chassis.direct := by
  cases hduty : i.duty with
  | none =>
      have hpending : (feed i fw).telemetry.dutyRequestPending = false :=
        congrArg Option.isSome hduty
      rw [nextDirect, hpending]
      rfl
  | some request =>
      have hpending : (feed i fw).telemetry.dutyRequestPending = true :=
        congrArg Option.isSome hduty
      have hrequest : (feed i fw).telemetry.dutyRequest = request :=
        congrArg (Option.getD · fw.telemetry.dutyRequest) hduty
      rw [nextDirect, hpending, hrequest]
      rfl

theorem applied_tick :
    applied (tick fw i).ctx.chassis.direct =
      if nextState (feed i fw) = .run then applied (nextDirect i.nowMs (feed i fw))
      else applied (looked (nextDirect i.nowMs (feed i fw)) i.nowMs) := by
  rw [tick, direct_controlTask, looked]
  by_cases hrun : nextState (feed i fw) = .run
  · rw [if_pos hrun, if_neg fun h => h.1 hrun]
  · simp only [hrun, ne_eq, not_false_eq_true, true_and, if_false]

variable {fw} (h : Wired fw)
include h

theorem duty_tick (w : Wheel) :
    (tick fw i).motor.duty w =
      if nextState (feed i fw) = .run then
        max 0 (min (wheelDemand (entered i.nowMs (feed i fw)).ctx.chassis
          (if i.start = true ∧ i.imuReady = true then 0 else i.delta w) w) 1000)
      else applied (nextDirect i.nowMs (feed i fw)) i.nowMs w := by
  have hduty := duty_controlTask i.nowMs (wired_feed h i).coherent w
  rw [demand, speedDemand_eq, pendingPulses_entered, pendingPulses_feed] at hduty
  refine hduty.trans ?_
  by_cases hrun : nextState (feed i fw) = .run
  · rw [if_pos hrun, if_pos hrun]
    rfl
  · rw [if_neg hrun, if_neg hrun, applied]
    split_ifs <;> rfl

end Tick

theorem wheelDemand_congr [CFloat.Zero F] {c c' : ControlChassis F} (h : SameSetup c carChassis)
    (h' : SameSetup c' carChassis) (hleft : c.targetSpeedLeft = c'.targetSpeedLeft)
    (hright : c.targetSpeedRight = c'.targetSpeedRight) (delta : ℤ) (w : Wheel) :
    wheelDemand c delta w = wheelDemand c' delta w := by
  -- without integral and derivative part the speed loops remember nothing
  have houtLeft (setpoint measure : F) :
      (pidUpdate c.pidLeft setpoint measure).1 = (pidUpdate c'.pidLeft setpoint measure).1 :=
    fst_pidUpdate_congr (h.pidLeft.trans h'.pidLeft.symm) h'.pidLeft.ki
      (Or.inl h'.pidLeft.kd) setpoint measure
  have houtRight (setpoint measure : F) :
      (pidUpdate c.pidRight setpoint measure).1 = (pidUpdate c'.pidRight setpoint measure).1 :=
    fst_pidUpdate_congr (h.pidRight.trans h'.pidRight.symm) h'.pidRight.ki
      (Or.inl h'.pidRight.kd) setpoint measure
  have hconfig := h.config.trans h'.config.symm
  cases w with
  | left => simp only [wheelDemand, hconfig, hleft, houtLeft, h.deadZoneLeft, h'.deadZoneLeft]
  | right => simp only [wheelDemand, hconfig, hright, houtRight, h.deadZoneRight, h'.deadZoneRight]

omit [CMath F] in
theorem targetLeft_steering (fw : Firmware F) :
    (steering fw).targetLeft = fw.ctx.chassis.targetSpeedLeft := rfl

omit [CMath F] in
theorem targetRight_steering (fw : Firmware F) :
    (steering fw).targetRight = fw.ctx.chassis.targetSpeedRight := rfl

omit [CMath F] in
theorem targetLeft_of_output_eq {fw fw' : Firmware F} (h : output fw = output fw') :
    fw.ctx.chassis.targetSpeedLeft = fw'.ctx.chassis.targetSpeedLeft :=
  congrArg TickOutput.targetLeft h

omit [CMath F] in
theorem duty_of_output_eq {fw fw' : Firmware F} (h : output fw = output fw') :
    fw.motor.duty = fw'.motor.duty :=
  congrArg TickOutput.duty h

/-- The motor part of an iteration leaves the targets. -/
theorem targets_entered (fw : Firmware F) (i : TickInput) :
    (entered i.nowMs (feed i fw)).ctx.chassis.targetSpeedLeft =
        (tick fw i).ctx.chassis.targetSpeedLeft ∧
      (entered i.nowMs (feed i fw)).ctx.chassis.targetSpeedRight =
        (tick fw i).ctx.chassis.targetSpeedRight := by
  have hentered := steering_controlTask_eq_entered i.nowMs (feed i fw)
  rw [← targetLeft_steering, ← targetLeft_steering, ← targetRight_steering, ← targetRight_steering,
    tick, hentered]
  exact ⟨rfl, rfl⟩

/-- Two states with the same application state and the same memory. -/
structure Alike (fw fw' : Firmware F) : Prop where
  wired : Wired fw
  wired' : Wired fw'
  memory : memory fw = memory fw'
  state : fw.ctx.state = fw'.ctx.state

section Congr

variable {fw fw' : Firmware F} (h : Wired fw) (h' : Wired fw') (hmemory : memory fw = memory fw')
  (i : TickInput) (hstate : nextState (feed i fw) = nextState (feed i fw'))
include hmemory

omit [CMath F] in
theorem applied_nextDirect_congr :
    applied (nextDirect i.nowMs (feed i fw)) = applied (nextDirect i.nowMs (feed i fw')) := by
  rw [applied_nextDirect_feed, applied_nextDirect_feed]
  split
  · rfl
  · exact congrArg Memory.applied hmemory

include h h'

theorem sameFilter_feed : SameFilter i.raw (feed i fw).lineSensor (feed i fw').lineSensor where
  config := config_feed h i
  config' := config_feed h' i
  primed := congrArg Memory.primed hmemory
  bias := congrArg Memory.bias hmemory
  lastBias := (h.line.held.trans (congrArg Memory.bias hmemory)).trans h'.line.held.symm

theorem track_congr [CFloat.Zero F] :
    (track i.nowMs (feed i fw)).1 = (track i.nowMs (feed i fw')).1 ∧
      SameFilter i.raw (track i.nowMs (feed i fw)).2.2 (track i.nowMs (feed i fw')).2.2 := by
  have hinput (fw : Firmware F) :
      (appStateTick i.nowMs ((feed i fw).setTick i.nowMs)).board.input = i.level :=
    (keepsSteering_appStateTick i.nowMs ((feed i fw).setTick i.nowMs)).input
  have hsame := sameFilter_feed h h' hmemory i
  have hboard := (hinput fw).trans (hinput fw').symm
  refine ⟨turn_congr (wired_feed h i).line (wired_feed h' i).line hsame hboard, ?_⟩
  rw [track, track, sensor_controlLineTrackerUpdate, sensor_controlLineTrackerUpdate]
  exact (update_congr hsame hboard).1

include hstate

theorem targets_tick_congr [CFloat.Zero F] :
    (tick fw i).ctx.chassis.targetSpeedLeft = (tick fw' i).ctx.chassis.targetSpeedLeft ∧
      (tick fw i).ctx.chassis.targetSpeedRight = (tick fw' i).ctx.chassis.targetSpeedRight := by
  have hturn := (track_congr h h' hmemory i).1
  have hsteering := steering_controlTask i.nowMs (feed i fw)
  have hsteering' := steering_controlTask i.nowMs (feed i fw')
  rw [hstate, hturn] at hsteering
  have hleft : (steering (tick fw i)).targetLeft = (steering (tick fw' i)).targetLeft := by
    rw [tick, tick, hsteering, hsteering']
    split_ifs <;> rfl
  have hright : (steering (tick fw i)).targetRight = (steering (tick fw' i)).targetRight := by
    rw [tick, tick, hsteering, hsteering']
    split_ifs <;> rfl
  rw [targetLeft_steering, targetLeft_steering] at hleft
  rw [targetRight_steering, targetRight_steering] at hright
  exact ⟨hleft, hright⟩

theorem memory_tick_congr [CFloat.Zero F] : memory (tick fw i) = memory (tick fw' i) := by
  have hfilter : SameFilter i.raw (tick fw i).lineSensor (tick fw' i).lineSensor := by
    rw [tick, tick, lineSensor_controlTask, lineSensor_controlTask, hstate]
    split_ifs
    · exact (track_congr h h' hmemory i).2
    · exact sameFilter_feed h h' hmemory i
  have happlied :
      applied (tick fw i).ctx.chassis.direct = applied (tick fw' i).ctx.chassis.direct := by
    rw [applied_tick, applied_tick, hstate, applied_looked, applied_looked,
      applied_nextDirect_congr hmemory]
  rw [memory, memory, hfilter.primed, hfilter.bias, happlied]

theorem duty_tick_congr [CFloat.Zero F] : (tick fw i).motor.duty = (tick fw' i).motor.duty := by
  obtain ⟨hleft, hright⟩ := targets_tick_congr h h' hmemory i hstate
  obtain ⟨hkeepsLeft, hkeepsRight⟩ := targets_entered fw i
  obtain ⟨hkeepsLeft', hkeepsRight'⟩ := targets_entered fw' i
  have hdemand := wheelDemand_congr
    ((setup_entered i.nowMs (feed i fw)).trans (wired_feed h i).setup)
    ((setup_entered i.nowMs (feed i fw')).trans (wired_feed h' i).setup)
    (hkeepsLeft.trans (hleft.trans hkeepsLeft'.symm))
    (hkeepsRight.trans (hright.trans hkeepsRight'.symm))
  funext w
  rw [duty_tick i h, duty_tick i h', hstate, hdemand, applied_nextDirect_congr hmemory]

/-- One iteration: the same outputs, and the same memory again. -/
theorem tick_congr [CFloat.Zero F] :
    output (tick fw i) = output (tick fw' i) ∧ Alike (tick fw i) (tick fw' i) := by
  obtain ⟨hleft, hright⟩ := targets_tick_congr h h' hmemory i hstate
  have hduty := duty_tick_congr h h' hmemory i hstate
  refine ⟨?_, wired_tick h i, wired_tick h' i, memory_tick_congr h h' hmemory i hstate, ?_⟩
  · rw [output, output, hleft, hright, hduty]
  · rw [tick, tick, state_controlTask, state_controlTask, hstate]

end Congr

/-! ### From a start on -/

omit [CMath F] in
theorem nextState_feed_of_start {fw fw' : Firmware F} {i : TickInput} (hstart : i.start = true)
    (hready : i.imuReady = true) : nextState (feed i fw) = nextState (feed i fw') := by
  rw [nextState_feed, nextState_feed, hstart, hready]
  simp only [and_self, if_true]

theorem Alike.tick [CFloat.Zero F] {fw fw' : Firmware F} (h : Alike fw fw') (i : TickInput) :
    output (tick fw i) = output (tick fw' i) ∧ Alike (tick fw i) (tick fw' i) := by
  refine tick_congr h.wired h.wired' h.memory i ?_
  rw [nextState_feed, nextState_feed, h.state]

/-- With the same memory, no run from a start on tells two states apart. -/
theorem independent_of_memory_eq [CFloat.Zero F] {fw fw' : Firmware F} (h : Wired fw)
    (h' : Wired fw') (hmemory : memory fw = memory fw') : Independent fw fw' := by
  intro i is hstart hready
  obtain ⟨hout, halike⟩ := tick_congr h h' hmemory i (nextState_feed_of_start hstart hready)
  have hrest : trace tick output (tick fw i) is = trace tick output (tick fw' i) is :=
    trace_eq_of_keeps (R := Alike) (fun _ _ i h => (h.tick i).2) (fun _ _ i h => (h.tick i).1)
      halike is
  rw [trace_cons, trace_cons, hout, hrest]

/-! ### Runs of the system -/

section System

variable {fw : Firmware F}

/-- Only the control iterations touch the memory. -/
theorem memory_step_of_other {e : Event F} (h : ∀ nowMs, e ≠ .control nowMs) :
    memory (App.step fw e) = memory fw := by
  have hsensor := congrArg Steering.lineSensor (keeps_step fw h).1
  have hdirect := (frame_step fw h).direct
  have hsame : (App.step fw e).lineSensor = fw.lineSensor := hsensor
  rw [memory, memory, hsame, hdirect]

theorem config_step (e : Event F) :
    (App.step fw e).lineSensor.config = fw.lineSensor.config := by
  by_cases hcontrol : ∃ nowMs, e = .control nowMs
  · obtain ⟨nowMs, rfl⟩ := hcontrol
    show (controlTask nowMs fw).lineSensor.config = fw.lineSensor.config
    rw [lineSensor_controlTask]
    split_ifs
    · rw [track, sensor_controlLineTrackerUpdate, config_devLineSensorUpdate]
    · rfl
  · have hsensor := congrArg Steering.lineSensor (keeps_step fw (not_exists.mp hcontrol)).1
    exact congrArg DevLineSensor.config hsensor

theorem config_exec (b : Board) (history : List (Event F)) :
    (exec App.step (appInit b : Firmware F) history).lineSensor.config = sLineSensorConfig :=
  exec_invariant (I := fun fw : Firmware F => fw.lineSensor.config = sLineSensorConfig)
    (fun _ e h => (config_step e).trans h) rfl history

theorem Alike.step {fw₀ : Firmware F} (h : Alike fw₀ fw) {e : Event F}
    (hother : ∀ nowMs, e ≠ .control nowMs) : Alike fw₀ (App.step fw e) where
  wired := h.wired
  wired' := wired_step h.wired' e
  memory := h.memory.trans (memory_step_of_other hother).symm
  state := h.state.trans (keeps_step fw hother).2.2.symm

/-- The control iterations of a run of the system put out what the machine does for the
inputs that they find, whatever the other tasks do between them. -/
theorem outputs_eq_trace [CFloat.Zero F] {fw₀ : Firmware F} (h : Alike fw₀ fw)
    (hconfig : fw.lineSensor.config = sLineSensorConfig) (run : List (Event F)) :
    outputs fw run = trace tick output fw₀ (inputs fw run) := by
  induction run generalizing fw₀ fw with
  | nil => rfl
  | cons e run ih =>
      have hconfig' := (config_step e).trans hconfig
      by_cases hcontrol : ∃ nowMs, e = .control nowMs
      · obtain ⟨nowMs, rfl⟩ := hcontrol
        have hraw : fw.lineSensor.config.readRaw = none := by
          rw [hconfig]
          rfl
        obtain ⟨hout, halike⟩ := h.tick (found nowMs fw)
        rw [← controlTask_eq_tick nowMs hraw] at hout halike
        rw [outputs, inputs, trace_cons, hout, ih halike hconfig']
      · have hother := not_exists.mp hcontrol
        rw [outputs_cons_of_other hother, inputs_cons_of_other hother]
        exact ih (h.step hother) hconfig'

end System

/-- Runs of the system in which the control iterations find the same inputs, with a start that
is obeyed in the first, put out the same. -/
def RunsAlike (fw fw' : Firmware F) : Prop :=
  ∀ run run' i is, inputs fw run = i :: is → inputs fw' run' = i :: is →
    i.start = true → i.imuReady = true → outputs fw run = outputs fw' run'

/-- With the same memory, no runs of the whole system from a start on tell two states apart. -/
theorem runsAlike_of_memory_eq [CFloat.Zero F] (b b' : Board) (history history' : List (Event F))
    (hmemory : memory (exec App.step (appInit b) history) =
      memory (exec App.step (appInit b') history')) :
    RunsAlike (exec App.step (appInit b : Firmware F) history)
      (exec App.step (appInit b' : Firmware F) history') := by
  intro run run' i is hrun hrun' hstart hready
  have hwired := wired_exec b history
  have hwired' := wired_exec b' history'
  have hindependent := independent_of_memory_eq hwired hwired' hmemory i is hstart hready
  rw [outputs_eq_trace ⟨hwired, hwired, rfl, rfl⟩ (config_exec b history), hrun, hindependent,
    ← hrun', outputs_eq_trace ⟨hwired', hwired', rfl, rfl⟩ (config_exec b' history')]

/-! ### Telling states apart -/

/-- A start with the line under channel `k`. -/
def startUnder (k : ℕ) : TickInput where
  nowMs := 0
  raw := none
  level := lineUnder k
  delta _ := 0
  start := true
  stop := false
  duty := none
  imuReady := true

def stopAt (nowMs : UInt32) : TickInput where
  nowMs := nowMs
  raw := none
  level := lineUnder 3
  delta _ := 0
  start := false
  stop := true
  duty := none
  imuReady := true

section Experiments

variable {fw : Firmware ℝ} (h : Wired fw) (hline : LineExact fw.ctx.linePid fw.lineSensor)

theorem nextState_startUnder (fw : Firmware ℝ) (k : ℕ) :
    nextState (feed (startUnder k) fw) = .run := rfl

include hline in
theorem track_bounds_startUnder (k : ℕ) (b : Board) :
    |(controlLineTrackerUpdate fw.ctx.linePid (feed (startUnder k) fw).lineSensor b).1| ≤ 0.22 ∧
      Tame (controlLineTrackerUpdate fw.ctx.linePid (feed (startUnder k) fw).lineSensor b).2.1 := by
  have hnormalised : Normalised (feed (startUnder k) fw).lineSensor :=
    ⟨hline.normalised.bias, hline.normalised.lastBias⟩
  obtain ⟨hturn, htame, -⟩ := track_bounds hline.tame hnormalised b
  exact ⟨hturn, htame⟩

include h

section Turn

include hline

/-- The turn of a start shows the filtered bias and the one before it. -/
theorem turn_startUnder {k : ℕ} (hk : k < bspAdcCcdCount) :
    (track 0 (feed (startUnder k) fw)).1 =
      0.02 * fw.lineSensor.frame.bias - 0.2 * fw.lineSensor.filterBias ((k - 3) / 3) := by
  let b := (appStateTick 0 ((feed (startUnder k) fw).setTick 0)).board
  have hinput : b.input = lineUnder k :=
    (keepsSteering_appStateTick 0 ((feed (startUnder k) fw).setTick 0)).input
  obtain ⟨honline, hbias, -⟩ := update_lineUnder (config_feed h (startUnder k)) hinput hk
  have hunlimited := (track_bounds_startUnder hline k b).2.unlimited
  have htrack : (track 0 (feed (startUnder k) fw)).1 =
      (pidUpdate fw.ctx.linePid 0.0
        (devLineSensorUpdate (feed (startUnder k) fw).lineSensor b).frame.bias).2.lastRawOutput := by
    rw [controlLineTrackerUpdate_of_onLine honline] at hunlimited
    exact (congrArg Prod.fst (controlLineTrackerUpdate_of_onLine honline)).trans hunlimited
  have hfilter : (feed (startUnder k) fw).lineSensor.filterBias = fw.lineSensor.filterBias := rfl
  rw [htrack, rawOutput_eq hline.tame, hline.remembers, hbias, hfilter]
  norm_num
  ring

theorem targetLeft_startUnder {k : ℕ} (hk : k < bspAdcCcdCount) :
    (tick fw (startUnder k)).ctx.chassis.targetSpeedLeft = leftBase -
      (0.02 * fw.lineSensor.frame.bias - 0.2 * fw.lineSensor.filterBias ((k - 3) / 3)) := by
  have hsteering := congrArg Steering.targetLeft (steering_controlTask 0 (feed (startUnder k) fw))
  rw [if_pos (nextState_startUnder fw k)] at hsteering
  have hturn := (track_bounds_startUnder hline k
    (appStateTick 0 ((feed (startUnder k) fw).setTick 0)).board).1
  rw [← turn_startUnder h hline hk, ← targetLeft_steering, tick]
  exact hsteering.trans (congrArg (leftBase - ·) (clampf_of_abs_le hturn))

end Turn

/-- The filter of the car, primed and not. -/
theorem filterBias_car (rawBias : ℝ) :
    fw.lineSensor.filterBias rawBias =
      if fw.lineSensor.biasPrimed then 0.35 * rawBias + 0.65 * fw.lineSensor.frame.bias
      else rawBias := by
  obtain ⟨raw, hraw⟩ := h.line.config
  have halpha : DevLineSensor.getAlpha fw.lineSensor.config = 0.35 := by
    rw [hraw]
    norm_num [DevLineSensor.getAlpha, carConfig, sLineSensorConfig]
  cases hprimed : fw.lineSensor.biasPrimed with
  | false => exact filterBias_of_unprimed hprimed rawBias
  | true =>
      rw [filterBias_of_primed hprimed, halpha, smooth]
      norm_num

/-- A stop after the start shows what the direct duty test applies. -/
theorem duty_stopAt (nowMs : UInt32) (w : Wheel) :
    (tick (tick fw (startUnder 3)) (stopAt nowMs)).motor.duty w =
      applied fw.ctx.chassis.direct nowMs w := by
  have hidle : nextState (feed (stopAt nowMs) (tick fw (startUnder 3))) = .idle := rfl
  have hstate : nextState (feed (stopAt nowMs) (tick fw (startUnder 3))) ≠ .run :=
    hidle.trans_ne (by decide)
  rw [duty_tick _ (wired_tick h _), if_neg hstate, applied_nextDirect_feed]
  show applied (tick fw (startUnder 3)).ctx.chassis.direct nowMs w = _
  rw [applied_tick, if_pos (nextState_startUnder fw 3), applied_nextDirect_feed]
  rfl

end Experiments

section Apart

variable {fw fw' : Firmware ℝ} (h : Wired fw) (h' : Wired fw')
  (hline : LineExact fw.ctx.linePid fw.lineSensor)
  (hline' : LineExact fw'.ctx.linePid fw'.lineSensor)
include h h' hline hline'

/-- The filters are told apart by the place of the line at the start. -/
theorem filter_eq
    (htarget : ∀ k < bspAdcCcdCount,
      (tick fw (startUnder k)).ctx.chassis.targetSpeedLeft =
        (tick fw' (startUnder k)).ctx.chassis.targetSpeedLeft) :
    fw.lineSensor.biasPrimed = fw'.lineSensor.biasPrimed ∧
      fw.lineSensor.frame.bias = fw'.lineSensor.frame.bias := by
  have hmiddle := htarget 3 (by decide)
  have hright := htarget 6 (by decide)
  rw [targetLeft_startUnder h hline (by decide), targetLeft_startUnder h' hline' (by decide),
    filterBias_car h, filterBias_car h'] at hmiddle hright
  -- an unprimed filter follows the line at once, a primed one by 0.35 of the way
  cases hprimed : fw.lineSensor.biasPrimed with
  | false =>
      have hzero := hline.unprimed hprimed
      cases hprimed' : fw'.lineSensor.biasPrimed with
      | false => exact ⟨rfl, hzero.trans (hline'.unprimed hprimed').symm⟩
      | true =>
          rw [hprimed, hprimed', hzero] at hmiddle hright
          norm_num at hmiddle hright
          linarith
  | true =>
      cases hprimed' : fw'.lineSensor.biasPrimed with
      | false =>
          rw [hprimed, hprimed', hline'.unprimed hprimed'] at hmiddle hright
          norm_num at hmiddle hright
          linarith
      | true =>
          rw [hprimed, hprimed'] at hmiddle
          norm_num at hmiddle
          exact ⟨rfl, by linarith⟩

theorem memory_eq_of_independent (hindependent : Independent fw fw') : memory fw = memory fw' := by
  have htarget : ∀ k < bspAdcCcdCount,
      (tick fw (startUnder k)).ctx.chassis.targetSpeedLeft =
        (tick fw' (startUnder k)).ctx.chassis.targetSpeedLeft := fun k _ => by
    obtain ⟨hout, -⟩ := List.cons.inj (hindependent (startUnder k) [] rfl rfl)
    exact targetLeft_of_output_eq hout
  have happlied : applied fw.ctx.chassis.direct = applied fw'.ctx.chassis.direct := by
    funext nowMs w
    obtain ⟨-, hrest⟩ := List.cons.inj (hindependent (startUnder 3) [stopAt nowMs] rfl rfl)
    obtain ⟨hout, -⟩ := List.cons.inj hrest
    rw [← duty_stopAt h nowMs w, ← duty_stopAt h' nowMs w, duty_of_output_eq hout]
  obtain ⟨hprimed, hbias⟩ := filter_eq h h' hline hline' htarget
  rw [memory, memory, hprimed, hbias, happlied]

end Apart

/-- In exact arithmetic, runs from a start on are independent of the past if and only if the
states agree in what a start leaves of it. -/
theorem independent_iff_memory_eq (b b' : Board) (history history' : List (Event ℝ)) :
    Independent (exec App.step (appInit b) history) (exec App.step (appInit b') history') ↔
      memory (exec App.step (appInit b) history) = memory (exec App.step (appInit b') history') :=
  ⟨memory_eq_of_independent (wired_exec b history) (wired_exec b' history')
      (lineExact_exec b history) (lineExact_exec b' history'),
    independent_of_memory_eq (wired_exec b history) (wired_exec b' history')⟩

/-- For every two reachable states. If they agree in what a start leaves of the past, no
inputs from a start on tell them apart, nor do runs of the whole system, in all arithmetic
in which a factor 0 hides the other one. In exact arithmetic they are told apart otherwise. -/
theorem independent_iff (F : Type*) [CMath F] [CFloat.Zero F] (b b' : Board) :
    (∀ history history' : List (Event F),
      memory (exec App.step (appInit b) history) = memory (exec App.step (appInit b') history') →
        Independent (exec App.step (appInit b) history) (exec App.step (appInit b') history') ∧
        RunsAlike (exec App.step (appInit b) history) (exec App.step (appInit b') history')) ∧
    ∀ history history' : List (Event ℝ),
      Independent (exec App.step (appInit b) history) (exec App.step (appInit b') history') ↔
        memory (exec App.step (appInit b) history) =
          memory (exec App.step (appInit b') history') :=
  ⟨fun history history' hmemory =>
      ⟨independent_of_memory_eq (wired_exec b history) (wired_exec b' history') hmemory,
        runsAlike_of_memory_eq b b' history history' hmemory⟩,
    independent_iff_memory_eq b b'⟩

/-! ### A run without a line -/

/-- A run in which the line is lost leaves no trace. -/
theorem memory_controlTask_of_lost {fw : Firmware ℝ} (h : Wired fw)
    (hconfig : fw.lineSensor.config = sLineSensorConfig) (nowMs : UInt32)
    (hinput : fw.board.input = lineUnder bspAdcCcdCount)
    (hpending : fw.telemetry.dutyRequestPending = false)
    (hidle : fw.ctx.chassis.direct.active = false) :
    memory (controlTask nowMs fw) = memory fw := by
  have hboard : (appStateTick nowMs (fw.setTick nowMs)).board.input = lineUnder bspAdcCcdCount :=
    (keepsSteering_appStateTick nowMs (fw.setTick nowMs)).input.trans hinput
  have hlost := lost_of_dark hconfig hboard rfl
  have hsensor : (controlTask nowMs fw).lineSensor.biasPrimed = fw.lineSensor.biasPrimed ∧
      (controlTask nowMs fw).lineSensor.frame.bias = fw.lineSensor.frame.bias := by
    rw [lineSensor_controlTask]
    split_ifs
    · obtain ⟨raw, hraw⟩ := h.line.config
      have hcount := getCount_car_ne_zero hraw
      rw [track, sensor_controlLineTrackerUpdate]
      refine ⟨?_, ?_⟩
      · rw [devLineSensorUpdate_eq _ _ hcount] at hlost ⊢
        split_ifs at hlost ⊢ with hdivides
        · exact absurd hdivides.1 (by simpa using hlost)
        · rfl
      · rw [bias_eq_lastBias _ _ hcount, lastBias_of_lost hlost, h.line.held]
    · exact ⟨rfl, rfl⟩
  have hdirect : (controlTask nowMs fw).ctx.chassis.direct = fw.ctx.chassis.direct := by
    have hnext : nextDirect nowMs fw = fw.ctx.chassis.direct := by
      rw [nextDirect, hpending]
      rfl
    rw [direct_controlTask, hnext, hidle]
    simp
  rw [memory, memory, hsensor.1, hsensor.2, hdirect]

/-- The IMU comes up, and the car is started with no line under it. -/
noncomputable def startedDark : List (Event ℝ) :=
  [.imuService LastCommand.imuUp, .fast 5, .rxByte 115,
    .inputs (lineUnder bspAdcCcdCount) fun _ => false]

/-- After a run that finds no line the next one is as the first. -/
theorem independent_after_dark :
    (exec App.step (appInit Board.atReset) (startedDark ++ [.control 10])).ctx.state = .run ∧
    Independent (exec App.step (appInit Board.atReset) [])
      (exec App.step (appInit Board.atReset) (startedDark ++ [.control 10])) := by
  have hstarted := wired_exec Board.atReset startedDark
  have hrun : nextState (exec App.step (appInit Board.atReset) startedDark) = .run := rfl
  have hmemory : memory (exec App.step (appInit Board.atReset : Firmware ℝ) []) =
      memory (exec App.step (appInit Board.atReset) (startedDark ++ [.control 10])) :=
    (memory_controlTask_of_lost hstarted (config_exec ..) 10 rfl rfl rfl).symm
  exact ⟨(state_controlTask ..).trans hrun,
    ((independent_iff ℝ Board.atReset Board.atReset).1 _ _ hmemory).1⟩

/-! ### A run that has been stopped -/

section Primed

variable {fw : Firmware F} (h : Wired fw)
include h

theorem primed_controlTask (nowMs : UInt32) (hprimed : fw.lineSensor.biasPrimed = true) :
    (controlTask nowMs fw).lineSensor.biasPrimed = true := by
  obtain ⟨raw, hraw⟩ := h.line.config
  rw [lineSensor_controlTask]
  split_ifs
  · rw [track, sensor_controlLineTrackerUpdate,
      devLineSensorUpdate_eq _ _ (getCount_car_ne_zero hraw)]
    split_ifs
    · rfl
    · exact hprimed
  · exact hprimed

/-- Nothing unprimes the filter. -/
theorem primed_step (e : Event F) (hprimed : fw.lineSensor.biasPrimed = true) :
    (App.step fw e).lineSensor.biasPrimed = true := by
  by_cases hcontrol : ∃ nowMs, e = .control nowMs
  · obtain ⟨nowMs, rfl⟩ := hcontrol
    exact primed_controlTask h nowMs hprimed
  · have hsensor := congrArg Steering.lineSensor (keeps_step fw (not_exists.mp hcontrol)).1
    exact (congrArg DevLineSensor.biasPrimed hsensor).trans hprimed

omit h [CMath F] in
/-- A run with the line under a channel primes it. -/
theorem primed_of_run {fw : Firmware ℝ} (hconfig : fw.lineSensor.config = sLineSensorConfig) (nowMs : UInt32) {k : ℕ}
    (hk : k < bspAdcCcdCount) (hrun : nextState fw = .run) (hinput : fw.board.input = lineUnder k) :
    (controlTask nowMs fw).lineSensor.biasPrimed = true := by
  have hboard : (appStateTick nowMs (fw.setTick nowMs)).board.input = lineUnder k :=
    (keepsSteering_appStateTick nowMs (fw.setTick nowMs)).input.trans hinput
  rw [lineSensor_controlTask, if_pos hrun, track, sensor_controlLineTrackerUpdate]
  exact (update_lineUnder hconfig hboard hk).2.2

end Primed

/-- The IMU comes up and the car is started with the line under its last channel. -/
noncomputable def started : List (Event ℝ) :=
  [.imuService LastCommand.imuUp, .fast 5, .rxByte 115, .inputs (lineUnder 6) fun _ => false]

/-- It runs for one iteration and is stopped. -/
noncomputable def stopped : List (Event ℝ) := started ++ [.control 10, .rxByte 120, .control 20]

/-- A start after this run and one without it are told apart. -/
theorem past_run_shows :
    ¬ Independent (exec App.step (appInit Board.atReset) [])
      (exec App.step (appInit Board.atReset) stopped) := by
  intro hindependent
  have hmemory := (independent_iff_memory_eq ..).mp hindependent
  have hstarted := wired_exec Board.atReset started
  have hrun : nextState (exec App.step (appInit Board.atReset) started) = .run := rfl
  have hconfig : (exec App.step (appInit Board.atReset : Firmware ℝ) started).lineSensor.config =
      sLineSensorConfig := rfl
  have hprimed := primed_of_run hconfig 10 (k := 6) (by decide) hrun rfl
  have hticked := wired_step hstarted (.control 10)
  have hbyte := primed_step hticked (.rxByte 120) hprimed
  have hlast :
      (exec App.step (appInit Board.atReset : Firmware ℝ) stopped).lineSensor.biasPrimed = true :=
    primed_step (wired_step hticked (.rxByte 120)) (.control 20) hbyte
  have hfresh := (congrArg Memory.primed hmemory).trans hlast
  cases hfresh

end NuedcFirmware.App.RunIndependence
