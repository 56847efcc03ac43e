import NuedcFirmware.Lib.Run
import NuedcFirmware.Modules.ImuService

/-!
The endless loop of the IMU service and what it calls.

The wait for a sample is followed call by call here, where `ImuRead` only says what it
comes to. The task gives the processor away in one place, behind a round of the wait that
finds no sample and time left. A pass that ends in its first round without a sample never
gets there, and with the data-ready line latched an error on the bus ends it in that round.
-/

namespace NuedcFirmware.Modules

open NuedcFirmware.Lib

variable {F : Type*} [CMath F]

def icm45688DataTimeoutMs : UInt32 := 50

def configTickRateHz : UInt32 := 1000

/-- `pdMS_TO_TICKS`. -/
def pdMsToTicks (ms : UInt32) : UInt32 := ms * configTickRateHz / 1000

/-- `ICM45688_MSPM0_GetDataReady`, what `inv_imu_get_int_status` gives to it being known;
the status and the flag that the caller has cleared. -/
def Icm45688.getDataReady (dev : Icm45688 F) (status : ℤ) (uiDrdy : Bool) : ℤ × Bool :=
  if !dev.ready then (invImuError, false)
  else if status = invImuOk then (status, uiDrdy)
  else (status, false)

/-- A call that the task makes, with what it got or gave. -/
inductive ImuCall
  | getTickCount (tick : UInt32)
  | dataReady (level : Bool)
  | getDataReady (status : ℤ) (ready : Bool)
  | update (status : ℤ)
  | heartbeat
  | taskDelay (ticks : UInt32)
  | publish (status : ℤ)
  deriving DecidableEq, Repr

/-- What a round of the wait finds: the level of the data-ready line, status and flag of
the interrupt status register, status and content of the data registers, and the tick. -/
structure ImuRound where
  level : Bool
  intStatus : ℤ
  uiDrdy : Bool
  dataStatus : ℤ
  raw : InvImuSensorData
  tick : UInt32

/-- The end of a round without a sample, behind the given calls. -/
def endRound (imu : Icm45688 F) (start : UInt32) (tick : UInt32) (calls : List ImuCall) :
    List ImuCall × Option (ℤ × Icm45688 F) :=
  if tick - start ≥ pdMsToTicks icm45688DataTimeoutMs then
    (calls ++ [.getTickCount tick], some (invImuErrorTimeout, imu))
  else (calls ++ [.getTickCount tick, .heartbeat, .taskDelay (pdMsToTicks 1)], none)

/-- A round of the loop in `wait_and_update_imu`: its calls, and the status and the device
where it returns. -/
def waitRound (imu : Icm45688 F) (start : UInt32) (r : ImuRound) :
    List ImuCall × Option (ℤ × Icm45688 F) :=
  if r.level then
    let (status, dataReady) := imu.getDataReady r.intStatus r.uiDrdy
    let calls := [.dataReady true, .getDataReady status dataReady]
    if status ≠ invImuOk then (calls, some (status, imu))
    else if dataReady then
      let (status, imu) := imu.update r.dataStatus r.raw
      (calls ++ [.update status], some (status, imu))
    else endRound imu start r.tick calls
  else endRound imu start r.tick [.dataReady false]

/-- The loop over the rounds there have been; it goes on where it has no result. -/
def waitRounds (imu : Icm45688 F) (start : UInt32) :
    List ImuRound → List ImuCall × Option (ℤ × Icm45688 F)
  | [] => ([], none)
  | r :: rounds =>
      match waitRound imu start r with
      | (calls, some result) => (calls, some result)
      | (calls, none) =>
          let (more, result) := waitRounds imu start rounds
          (calls ++ more, result)

/-- What happens in a pass of the endless loop, up to its end or as far as it has come: the
requests of the other tasks that it finds, the tick it begins to wait at, the rounds of the
wait, of which there is one at least, and the tick it publishes at. -/
structure ImuPass where
  startRequested : Bool
  cancelRequested : Bool
  start : UInt32
  first : ImuRound
  more : List ImuRound
  nowMs : UInt32

/-- The requests are served. -/
def ImuPass.serve (pass : ImuPass) (s : ImuService F) : ImuService F :=
  ImuService.serviceYawRequests
    { s with
      yawCalStartRequested := s.yawCalStartRequested || pass.startRequested
      yawCalCancelRequested := s.yawCalCancelRequested || pass.cancelRequested }

/-- A pass of the endless loop of `IMU_Service_Task`: its calls, and the service after it
where it ends. -/
def imuServicePass (pass : ImuPass) (s : ImuService F) :
    List ImuCall × Option (ImuService F) :=
  let s := pass.serve s
  match waitRounds s.imu pass.start (pass.first :: pass.more) with
  | (calls, none) => (.getTickCount pass.start :: calls, none)
  | (calls, some (status, imu)) =>
      let s := { s with imu }
      let s := if status = invImuOk then s.updateYawCalibration else s
      (.getTickCount pass.start :: calls ++ [.publish status, .heartbeat],
        some (publishSnapshot .ready status pass.nowMs s))

namespace ImuWait

/-- A fresh sample was taken. -/
def Fresh (calls : List ImuCall) : Prop :=
  .getDataReady invImuOk true ∈ calls ∧ .update invImuOk ∈ calls

/-- The task gave the processor away. -/
def Delays (calls : List ImuCall) : Prop := ∃ ticks > 0, .taskDelay ticks ∈ calls

/-- What a pass of the loop should do. -/
def Yields (s : Option (ImuService F)) (pass : ImuPass) : Prop :=
  ∀ service ∈ s, Fresh (imuServicePass pass service).1 ∨ Delays (imuServicePass pass service).1

/-- The service before the next pass; there is none where a pass goes on. -/
def step (s : Option (ImuService F)) (pass : ImuPass) : Option (ImuService F) :=
  s.bind fun service => (imuServicePass pass service).2

/-- The first round ends the pass without a sample: an error of the interrupt status
register or of the data registers with the data-ready line high, or no sample and a tick
past the limit. -/
def Fails (ready : Bool) (start : UInt32) (r : ImuRound) : Prop :=
  if r.level then
    if ready ∧ r.intStatus = invImuOk then
      if r.uiDrdy then r.dataStatus ≠ invImuOk
      else pdMsToTicks icm45688DataTimeoutMs ≤ r.tick - start
    else True
  else pdMsToTicks icm45688DataTimeoutMs ≤ r.tick - start

/-! ### Rounds -/

variable {imu : Icm45688 F} {start : UInt32}

theorem delay_pos : pdMsToTicks 1 > 0 := by decide

variable (imu start) in
omit [CMath F] in
/-- A round without a sample: with time left the task sleeps, else the round fails. -/
theorem endRound_spec (tick : UInt32) {calls : List ImuCall}
    (hcalls : calls = [.dataReady false] ∨
      calls = [.dataReady true, .getDataReady invImuOk false]) :
    match endRound imu start tick calls with
    | (calls', none) =>
        Delays calls' ∧ ¬ pdMsToTicks icm45688DataTimeoutMs ≤ tick - start
    | (calls', some _) =>
        ¬ Delays calls' ∧ ¬ Fresh calls' ∧ pdMsToTicks icm45688DataTimeoutMs ≤ tick - start := by
  rw [endRound]
  by_cases htick : pdMsToTicks icm45688DataTimeoutMs ≤ tick - start
  · rw [if_pos htick]
    rcases hcalls with rfl | rfl <;> simp [Delays, Fresh, htick]
  · rw [if_neg htick]
    exact ⟨⟨pdMsToTicks 1, delay_pos, by simp⟩, htick⟩

omit [CMath F] in
theorem getDataReady_eq (status : ℤ) (uiDrdy : Bool) :
    imu.getDataReady status uiDrdy =
      if imu.ready ∧ status = invImuOk then (invImuOk, uiDrdy)
      else (if imu.ready then status else invImuError, false) := by
  rw [Icm45688.getDataReady]
  cases imu.ready with
  | false => simp
  | true => by_cases hstatus : status = invImuOk <;> simp [hstatus]

variable (imu start) in
/-- A round that goes on has slept; one that ends has not, and brings a sample if it does
not fail. -/
theorem waitRound_spec (r : ImuRound) :
    match waitRound imu start r with
    | (calls, none) => Delays calls ∧ ¬ Fails imu.ready start r
    | (calls, some _) => ¬ Delays calls ∧ (Fresh calls ↔ ¬ Fails imu.ready start r) := by
  rw [waitRound, Fails]
  cases r.level with
  | false =>
      simp only [Bool.false_eq_true, if_false]
      have hend := endRound_spec imu start r.tick (Or.inl rfl)
      split at hend
      · exact hend
      · exact ⟨hend.1, iff_of_false hend.2.1 (not_not_intro hend.2.2)⟩
  | true =>
      simp only [if_true, getDataReady_eq]
      by_cases hread : imu.ready = true ∧ r.intStatus = invImuOk
      · simp only [if_pos hread, ne_eq, not_true_eq_false, if_false]
        cases r.uiDrdy with
        | false =>
            simp only [Bool.false_eq_true, if_false]
            have hend := endRound_spec imu start r.tick (Or.inr rfl)
            split at hend
            · exact hend
            · exact ⟨hend.1, iff_of_false hend.2.1 (not_not_intro hend.2.2)⟩
        | true =>
            simp only [if_true, Icm45688.update, hread.1, Bool.not_true, Bool.false_eq_true,
              if_false]
            by_cases hdata : r.dataStatus = invImuOk
            · simp [hdata, Delays, Fresh]
            · simp [hdata, Ne.symm hdata, Delays, Fresh]
      · have herror : (if imu.ready then r.intStatus else invImuError) ≠ invImuOk := by
          cases hready : imu.ready with
          | false => simp [invImuError, invImuOk]
          | true => simpa [hready] using hread
        simp only [if_neg hread]
        rw [if_pos herror]
        simp [Delays, Fresh]

/-! ### Passes -/

omit [CMath F] in
theorem Delays.mono {calls calls' : List ImuCall} (h : Delays calls) (hsub : calls ⊆ calls') :
    Delays calls' := by
  obtain ⟨ticks, hpos, hmem⟩ := h
  exact ⟨ticks, hpos, hsub hmem⟩

variable (imu start) in
/-- Only the first round matters: behind it the task has slept. -/
theorem waitRounds_spec (r : ImuRound) (rounds : List ImuRound) :
    (Fresh (waitRounds imu start (r :: rounds)).1 ∨ Delays (waitRounds imu start (r :: rounds)).1) ↔
      ¬ Fails imu.ready start r := by
  have hround := waitRound_spec imu start r
  rw [waitRounds]
  split at hround
  · next calls heq =>
    simp only [heq]
    exact iff_of_true (Or.inr (hround.1.mono (List.subset_append_left ..))) hround.2
  · next calls result heq =>
    simp only [heq]
    rw [or_iff_left hround.1]
    exact hround.2

@[simp] theorem ready_cancelYawCalibration (s : ImuService F) :
    s.cancelYawCalibration.imu.ready = s.imu.ready := by
  rw [ImuService.cancelYawCalibration]
  split_ifs <;> rfl

@[simp] theorem ready_startYawCalibration (s : ImuService F) :
    s.startYawCalibration.imu.ready = s.imu.ready := rfl

@[simp] theorem ready_serve (pass : ImuPass) (s : ImuService F) :
    (pass.serve s).imu.ready = s.imu.ready := by
  simp only [ImuPass.serve, ImuService.serviceYawRequests]
  split_ifs <;> simp

omit [CMath F] in
/-- The calls around the wait are neither a sample nor a delay. -/
theorem fresh_or_delays_wrap (tick : UInt32) (status : ℤ) (calls : List ImuCall) :
    (Fresh (.getTickCount tick :: calls ++ [.publish status, .heartbeat]) ∨
        Delays (.getTickCount tick :: calls ++ [.publish status, .heartbeat])) ↔
      (Fresh calls ∨ Delays calls) := by
  simp [Fresh, Delays]

theorem yields_iff (pass : ImuPass) (s : ImuService F) :
    Yields (some s) pass ↔ ¬ Fails s.imu.ready pass.start pass.first := by
  have hwait := waitRounds_spec (pass.serve s).imu pass.start pass.first pass.more
  rw [ready_serve] at hwait
  rw [← hwait]
  simp only [Yields, Option.mem_some_iff, forall_eq', imuServicePass]
  split
  · next calls heq => simp [heq, Fresh, Delays]
  · next calls status imu heq =>
    rw [heq]
    exact fresh_or_delays_wrap pass.start status calls

/-! ### What a pass comes to -/

omit [CMath F] in
theorem result_endRound {tick : UInt32} {calls : List ImuCall} {result : ℤ × Icm45688 F}
    (h : (endRound imu start tick calls).2 = some result) : result = (invImuErrorTimeout, imu) := by
  rw [endRound] at h
  split_ifs at h
  · exact (Option.some.inj h).symm

/-- A round that ends the wait is one of the outcomes that `ImuRead` tells apart. -/
theorem exists_read_of_waitRound {r : ImuRound} {result : ℤ × Icm45688 F}
    (h : (waitRound imu start r).2 = some result) : ∃ read, waitAndUpdateImu imu read = result := by
  have htimeout : waitAndUpdateImu imu (.error invImuErrorTimeout (by decide)) =
      (invImuErrorTimeout, imu) := rfl
  rw [waitRound] at h
  dsimp only at h
  split_ifs at h with _ hstatus
  · exact ⟨.error _ hstatus, Option.some.inj h⟩
  · exact ⟨.data r.dataStatus r.raw, Option.some.inj h⟩
  · rw [result_endRound h]
    exact ⟨_, htimeout⟩
  · rw [result_endRound h]
    exact ⟨_, htimeout⟩

theorem exists_read_of_waitRounds {rounds : List ImuRound} {result : ℤ × Icm45688 F}
    (h : (waitRounds imu start rounds).2 = some result) :
    ∃ read, waitAndUpdateImu imu read = result := by
  induction rounds with
  | nil => simp [waitRounds] at h
  | cons r rounds ih =>
      rw [waitRounds] at h
      split at h
      · next calls result' heq =>
        have hround : (waitRound imu start r).2 = some result := by
          rw [heq]
          exact h
        exact exists_read_of_waitRound hround
      · exact ih h

/-- A pass that ends does what `imuServiceSample` says, for what its wait comes to. -/
theorem exists_sample_of_pass {pass : ImuPass} {s s' : ImuService F}
    (h : (imuServicePass pass s).2 = some s') :
    ∃ read, s' = imuServiceSample read pass.nowMs (pass.serve s) := by
  rw [imuServicePass] at h
  dsimp only at h
  split at h
  · simp at h
  · next calls status imu heq =>
    obtain ⟨read, hread⟩ := exists_read_of_waitRounds (congrArg Prod.snd heq)
    refine ⟨read, ?_⟩
    rw [imuServiceSample, hread]
    exact (Option.some.inj h).symm

/-- In every run of the endless loop, every pass takes a fresh sample or gives the processor
away, if and only if no pass fails in its first round. -/
theorem yields_run_iff (s : Option (ImuService F)) (passes : List ImuPass) :
    EachStep step Yields s passes ↔
      EachStep step (fun s pass => ∀ service ∈ s, ¬ Fails service.imu.ready pass.start pass.first)
        s passes := by
  refine eachStep_congr (I := fun _ => True) (fun _ _ _ _ => trivial) (fun s pass _ => ?_) trivial
  cases s with
  | none => simp [Yields]
  | some service => simpa using yields_iff pass service

/-- The interrupt status register cannot be read, with the data-ready line latched. -/
def brokenBus : ImuRound where
  level := true
  intStatus := -1
  uiDrdy := true
  dataStatus := -1
  raw := ⟨0, 0, 2048, 0, 0, 0, 0⟩
  tick := 1000

def brokenPass : ImuPass := ⟨false, false, 1000, brokenBus, [], 1000⟩

/-- A service whose sensor is ready. -/
noncomputable def running : ImuService ℝ :=
  { imuServiceInit with imu := { Icm45688.zero with ready := true } }

theorem not_yields_broken (s : ImuService ℝ) : ¬ Yields (some s) brokenPass := by
  rw [yields_iff, not_not]
  simp [Fails, brokenPass, brokenBus, invImuOk]

theorem isSome_step_broken (s : ImuService ℝ) : (step (some s) brokenPass).isSome := by
  have herror (imu : Icm45688 ℝ) : (imu.getDataReady (-1) true).1 ≠ invImuOk := by
    rw [getDataReady_eq]
    cases imu.ready <;> simp [invImuOk, invImuError]
  simp [step, imuServicePass, waitRounds, waitRound, brokenPass, brokenBus, herror]

/-- With the bus broken the loop goes round without a sample and without giving the processor
away. -/
theorem not_yields :
    ¬ EachStep step Yields (some running) [brokenPass, brokenPass] ∧
      ¬ Yields (some running) brokenPass ∧
      (step (some running) brokenPass).isSome ∧
      ¬ Yields (step (some running) brokenPass) brokenPass := by
  have hfirst := not_yields_broken running
  obtain ⟨s, hs⟩ := Option.isSome_iff_exists.mp (isSome_step_broken running)
  refine ⟨fun h => hfirst h.1, hfirst, isSome_step_broken running, ?_⟩
  rw [hs]
  exact not_yields_broken s

end ImuWait

end NuedcFirmware.Modules
