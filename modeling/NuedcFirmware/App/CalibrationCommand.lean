import NuedcFirmware.App.Drive

/-!
The calibration commands on their way to the IMU service.

`telemetry_task` forwards at most one `$IMUCAL` request per iteration, as a flag of
the IMU service, and `service_yaw_requests` looks at the cancel flag first and at the
start flag after it. Of the requests that were forwarded between two of its runs it so
obeys a start, whatever came last.
-/

namespace NuedcFirmware.App.CalibrationCommand

open NuedcFirmware.Lib NuedcFirmware.Platform NuedcFirmware.Modules

variable {F : Type*} [CMath F]

inductive Command
  | start
  | cancel
  deriving DecidableEq, Repr

/-- The command that a request of the telemetry stands for. -/
def command : TelemetryImuCalRequest → Option Command
  | .none => none
  | .start => some .start
  | .cancel => some .cancel

/-- The firmware with the commands forwarded since the last run of
`service_yaw_requests`, oldest first. -/
structure Observed (F : Type*) where
  firmware : Firmware F
  forwarded : List Command

/-- A byte is received, `telemetry_task` runs through its loop once, or the IMU service
serves the requests or waits for a sample. The parts of a pass of the service are steps
of their own, so that iterations of the telemetry come between them. -/
inductive Event
  | rxByte (byte : UInt8)
  | telemetry (nowMs : UInt32)
  | serveRequests
  | sample (read : ImuRead) (nowMs : UInt32)

/-- What the next iteration of `telemetry_task` forwards. -/
def next (fw : Firmware F) (nowMs : UInt32) : Option Command :=
  command (telemetryConsumeImuCalRequest (telemetryTick nowMs fw.telemetry).1).1

def step (o : Observed F) : Event → Observed F
  | .rxByte byte => { o with firmware := App.step o.firmware (.rxByte byte) }
  | .telemetry nowMs =>
      { firmware := telemetryTask nowMs o.firmware
        forwarded := o.forwarded ++ (next o.firmware nowMs).toList }
  | .serveRequests =>
      { firmware := { o.firmware with imu := o.firmware.imu.serviceYawRequests }, forwarded := [] }
  | .sample read nowMs =>
      { o with
        firmware := { o.firmware with imu := imuServiceSample read nowMs o.firmware.imu } }

/-- A firmware in which no command is on its way to the service. -/
def start (fw : Firmware F) : Observed F where
  firmware :=
    { fw with
      imu := { fw.imu with yawCalStartRequested := false, yawCalCancelRequested := false } }
  forwarded := []

/-- The state that a command asks for. -/
def Command.target : Command → ImuYawCalState
  | .start => .waitStill
  | .cancel => .idle

/-- A run of `service_yaw_requests` ends in the state that the last command forwarded to
it asks for. -/
def LastWins (o : Observed F) (e : Event) : Prop :=
  e = .serveRequests → ∀ last, o.forwarded.getLast? = some last →
    (step o e).firmware.imu.yawCal.state = last.target

/-- The service finds no cancel command that was forwarded after a start. -/
def NoStartBeforeCancel (o : Observed F) (e : Event) : Prop :=
  e = .serveRequests → o.forwarded.getLast? = some .cancel → .start ∉ o.forwarded

/-- The flags of the service are what was forwarded. -/
structure Inv (o : Observed F) : Prop where
  start : o.firmware.imu.yawCalStartRequested = decide (.start ∈ o.forwarded)
  cancel : o.firmware.imu.yawCalCancelRequested = decide (.cancel ∈ o.forwarded)

/-! ### The service -/

section Service

variable (s : ImuService F)

theorem flags_cancelYawCalibration :
    s.cancelYawCalibration.yawCalStartRequested = s.yawCalStartRequested ∧
      s.cancelYawCalibration.yawCalCancelRequested = false ∧
      s.cancelYawCalibration.yawCal.state = .idle := by
  rw [ImuService.cancelYawCalibration]
  split_ifs <;> exact ⟨rfl, rfl, rfl⟩

/-- What one run of `service_yaw_requests` makes of the flags. -/
theorem serviceYawRequests_spec :
    s.serviceYawRequests.yawCalStartRequested = false ∧
      s.serviceYawRequests.yawCalCancelRequested = false ∧
      s.serviceYawRequests.yawCal.state =
        if s.yawCalStartRequested then .waitStill
        else if s.yawCalCancelRequested then .idle
        else s.yawCal.state := by
  obtain ⟨hstart, hcancel, hstate⟩ := flags_cancelYawCalibration s
  rw [ImuService.serviceYawRequests]
  cases hs : s.yawCalStartRequested <;> cases hc : s.yawCalCancelRequested
  · simp [hs, hc]
  · simp [hstart, hcancel, hstate, hs]
  · simp [hs, hc, ImuService.startYawCalibration, ImuService.resetAttitude, ImuService.setScaleZ]
  · simp [hstart, hcancel, hs, ImuService.startYawCalibration, ImuService.resetAttitude,
      ImuService.setScaleZ]

theorem flags_completeYawCalibration :
    s.completeYawCalibration.yawCalStartRequested = s.yawCalStartRequested ∧
      s.completeYawCalibration.yawCalCancelRequested = s.yawCalCancelRequested := by
  rw [ImuService.completeYawCalibration]
  dsimp only
  split_ifs <;> exact ⟨rfl, rfl⟩

omit [CMath F] in
theorem flags_settle (still : Bool) {done : ImuService F → ImuService F}
    (hdone : ∀ s', (done s').yawCalStartRequested = s'.yawCalStartRequested ∧
      (done s').yawCalCancelRequested = s'.yawCalCancelRequested) :
    (s.settle still done).yawCalStartRequested = s.yawCalStartRequested ∧
      (s.settle still done).yawCalCancelRequested = s.yawCalCancelRequested := by
  rw [ImuService.settle]
  dsimp only
  split_ifs
  · exact hdone _
  · exact ⟨rfl, rfl⟩
  · exact ⟨rfl, rfl⟩

/-- The calibration itself leaves the flags alone. -/
theorem flags_updateYawCalibration :
    s.updateYawCalibration.yawCalStartRequested = s.yawCalStartRequested ∧
      s.updateYawCalibration.yawCalCancelRequested = s.yawCalCancelRequested := by
  rw [ImuService.updateYawCalibration]
  cases s.yawCal.state with
  | idle | complete | failed => exact ⟨rfl, rfl⟩
  | waitStill => exact flags_settle s _ fun s' => ⟨rfl, rfl⟩
  | waitPositive | waitNegative =>
      dsimp only
      split_ifs <;> exact ⟨rfl, rfl⟩
  | positiveActive =>
      apply flags_settle
      intro s'
      dsimp only
      split_ifs <;> exact ⟨rfl, rfl⟩
  | negativeActive =>
      apply flags_settle
      intro s'
      exact flags_completeYawCalibration _

theorem flags_imuServiceSample (read : ImuRead) (nowMs : UInt32) :
    (imuServiceSample read nowMs s).yawCalStartRequested = s.yawCalStartRequested ∧
      (imuServiceSample read nowMs s).yawCalCancelRequested = s.yawCalCancelRequested := by
  rw [imuServiceSample]
  dsimp only
  split_ifs
  · exact flags_updateYawCalibration { s with imu := (waitAndUpdateImu s.imu read).2 }
  · exact ⟨rfl, rfl⟩

end Service

omit [CMath F] in
/-- An iteration of `telemetry_task` raises the flag of what it forwards. -/
theorem imu_telemetryTask (nowMs : UInt32) (fw : Firmware F) :
    (telemetryTask nowMs fw).imu =
      match next fw nowMs with
      | none => fw.imu
      | some .start => imuRequestYawCalibration fw.imu
      | some .cancel => imuCancelYawCalibration fw.imu := by
  simp only [telemetryTask, next, telemetryConsumeImuCalRequest, Firmware.setTick, Firmware.beat]
  cases (telemetryTick nowMs fw.telemetry).1.imuCalRequest <;> rfl

/-! ### Runs -/

theorem inv_step (o : Observed F) (e : Event) (h : Inv o) : Inv (step o e) := by
  cases e with
  | rxByte byte => exact ⟨h.start, h.cancel⟩
  | serveRequests =>
      obtain ⟨hstart, hcancel, -⟩ := serviceYawRequests_spec o.firmware.imu
      exact ⟨by simpa [step] using hstart, by simpa [step] using hcancel⟩
  | sample read nowMs =>
      obtain ⟨hstart, hcancel⟩ := flags_imuServiceSample o.firmware.imu read nowMs
      exact ⟨hstart.trans h.start, hcancel.trans h.cancel⟩
  | telemetry nowMs =>
      have himu := imu_telemetryTask nowMs o.firmware
      cases hnext : next o.firmware nowMs with
      | none =>
          rw [hnext] at himu
          exact ⟨by simpa [step, himu, hnext] using h.start,
            by simpa [step, himu, hnext] using h.cancel⟩
      | some last =>
          rw [hnext] at himu
          cases last with
          | start =>
              exact ⟨by simp [step, himu, hnext, imuRequestYawCalibration],
                by simpa [step, himu, hnext, imuRequestYawCalibration] using h.cancel⟩
          | cancel =>
              exact ⟨by simpa [step, himu, hnext, imuCancelYawCalibration] using h.start,
                by simp [step, himu, hnext, imuCancelYawCalibration]⟩

theorem lastWins_step_iff (o : Observed F) (e : Event) (h : Inv o) :
    LastWins o e ↔ NoStartBeforeCancel o e := by
  refine forall_congr' fun he => ?_
  subst he
  obtain ⟨-, -, hstate⟩ := serviceYawRequests_spec o.firmware.imu
  rw [h.start, h.cancel] at hstate
  have hafter : (step o .serveRequests).firmware.imu.yawCal.state = _ := hstate
  rw [hafter]
  refine ⟨?_, ?_⟩
  · intro hwins hlast hstart
    have hidle := hwins .cancel hlast
    simp [hstart, Command.target] at hidle
  · intro hno last hlast
    have hmem := List.mem_of_getLast? hlast
    cases last with
    | start => simp [hmem, Command.target]
    | cancel => simp [hmem, hno hlast, Command.target]

/-- Over every interleaving of the telemetry with the service, every run of
`service_yaw_requests` obeys the last command forwarded to it, if and only if none finds
a cancel that was forwarded after a start. -/
theorem lastWins_iff (fw : Firmware F) (run : List Event) :
    EachStep step LastWins (start fw) run ↔ EachStep step NoStartBeforeCancel (start fw) run := by
  have hstart : Inv (start fw) := ⟨rfl, rfl⟩
  exact eachStep_congr (fun o e h _ => inv_step o e h) lastWins_step_iff hstart

/-- A start and then a cancel command, each forwarded in an iteration of its own before
the service looks. -/
def startThenCancel : List Event :=
  (ascii "$IMUCAL,START\n").map .rxByte ++ .telemetry 10 ::
    ((ascii "$IMUCAL,CANCEL\n").map .rxByte ++ [.telemetry 20])

/-- The calibration is started. -/
theorem start_outlives_cancel :
    ¬ EachStep step LastWins (start (appInit Board.atReset : Firmware ℝ))
      (startThenCancel ++ [.serveRequests]) := by
  intro hwins
  have hlast := (eachStep_append.mp hwins).2.1
  have hinv : Inv (exec step (start (appInit Board.atReset : Firmware ℝ)) startThenCancel) :=
    exec_invariant inv_step ⟨rfl, rfl⟩ startThenCancel
  have hforwarded : (exec step (start (appInit Board.atReset : Firmware ℝ))
      startThenCancel).forwarded = [.start, .cancel] := by decide +kernel
  have hno := (lastWins_step_iff _ _ hinv).mp hlast rfl
  rw [hforwarded] at hno
  exact hno rfl (by decide)

end NuedcFirmware.App.CalibrationCommand
