import NuedcFirmware.App.Drive

/-!
Which motion command a control iteration obeys.

The receiver notes start, stop and duty commands in three mailboxes that do not know
of each other, and `App_State_Tick` takes them in the order stop, start, duty. So
among the commands that arrive between two iterations a later kind in this order wins
over an earlier one, whichever came last. An observer writes the commands down, and
the last of them is obeyed exactly when it is not overruled so.
-/

namespace NuedcFirmware.App.LastCommand

open NuedcFirmware.Lib NuedcFirmware.Platform NuedcFirmware.Modules
open NuedcFirmware.Control

/-- A command that starts or stops the car. -/
inductive MotionCommand
  | start
  | stop
  | duty (request : TelemetryDutyRequest)
  deriving DecidableEq, Repr

def motionCommand : Request → Option MotionCommand
  | .start => some .start
  | .stop => some .stop
  | .duty request => some (.duty request)
  | .imuCal _ => none

/-- The firmware, and the motion commands completed since the last control
iteration, in order. -/
structure Observed (F : Type*) where
  firmware : Firmware F
  commands : List MotionCommand

variable {F : Type*} [CMath F]

/-- The motion command that a byte completes. -/
def received (o : Observed F) (byte : UInt8) : Option MotionCommand :=
  (completedRequest byte o.firmware.telemetry).bind motionCommand

def step (o : Observed F) (e : Event F) : Observed F where
  firmware := App.step o.firmware e
  commands :=
    match e with
    | .rxByte byte => o.commands ++ (received o byte).toList
    | .control _ => []
    | _ => o.commands

def start (b : Board) : Observed F := ⟨appInit b, []⟩

/-- `App_State_Tick` as a control iteration calls it. -/
def stateTick (nowMs : UInt32) (fw : Firmware F) : Firmware F :=
  appStateTick nowMs (fw.setTick nowMs)

/-- `App_State_Tick` calls `Control_Chassis_SetDebugDuty`: when it has taken a stop
and a start request, it gets a duty request. -/
def ArmsDuty (nowMs : UInt32) (fw : Firmware F) : Prop :=
  (telemetryConsumeDutyRequest
    (takeStartRequest (takeStopRequest (fw.setTick nowMs))).telemetry).1 ≠ none

/-- `App_State_Tick` does what the command says. -/
def Obeys (nowMs : UInt32) (fw : Firmware F) : MotionCommand → Prop
  | .stop => (stateTick nowMs fw).ctx.state = .idle ∧ ¬ ArmsDuty nowMs fw
  | .start => (stateTick nowMs fw).ctx.state = .run
  | .duty request =>
      (stateTick nowMs fw).ctx.state = .idle ∧
        (stateTick nowMs fw).ctx.chassis.direct =
          { active := true
            left := request.leftPwm
            right := request.rightPwm
            deadlineMs := nowMs + if request.holdMs = 0 then 800 else request.holdMs }

/-- With the IMU ready, a control iteration obeys the last command received since the
one before. -/
def LastCommandWins (o : Observed F) (e : Event F) : Prop :=
  ∀ nowMs, e = .control nowMs → o.firmware.ctx.imuReady = true →
    ∀ command, o.commands.getLast? = some command → Obeys nowMs o.firmware command

/-- With the IMU ready, the commands that a control iteration finds do not overrule
the last of them: with a stop there are only stops, and with a start no duty. -/
def NotOverruled (o : Observed F) (e : Event F) : Prop :=
  ∀ nowMs, e = .control nowMs → o.firmware.ctx.imuReady = true →
    (o.commands.getLast? = some .stop → ∀ command ∈ o.commands, command = .stop) ∧
    (o.commands.getLast? = some .start → ∀ request, .duty request ∉ o.commands)

/-! ### The mailboxes -/

/-- The three mailboxes of the motion commands. -/
structure MotionMailboxes where
  start : Bool
  stop : Bool
  dutyPending : Bool
  duty : TelemetryDutyRequest

def motionMailboxes (t : Telemetry) : MotionMailboxes :=
  ⟨t.startRequest, t.stopRequest, t.dutyRequestPending, t.dutyRequest⟩

/-- The mailboxes hold what was received since the last control iteration. -/
structure Recorded (m : MotionMailboxes) (commands : List MotionCommand) : Prop where
  start : m.start = true ↔ .start ∈ commands
  stop : m.stop = true ↔ .stop ∈ commands
  duty : m.dutyPending = true ↔ ∃ request, .duty request ∈ commands
  latest : ∀ request, commands.getLast? = some (.duty request) → m.duty = request

theorem recorded_nil (duty : TelemetryDutyRequest) : Recorded ⟨false, false, false, duty⟩ [] where
  start := by simp
  stop := by simp
  duty := by simp
  latest _ h := by cases h

/-- A request is recorded with the motion command it gives, if any. -/
theorem Recorded.post {t : Telemetry} {commands : List MotionCommand}
    (h : Recorded (motionMailboxes t) commands) (r : Request) :
    Recorded (motionMailboxes (t.post r)) (commands ++ (motionCommand r).toList) := by
  obtain ⟨hstart, hstop, hduty, hlatest⟩ := h
  -- each kind has a mailbox of its own, so a request leaves the other two as they were
  cases r with
  | start =>
      refine ⟨?_, ?_, ?_, ?_⟩
      · simp [motionCommand, Telemetry.post, motionMailboxes]
      · simpa [motionCommand, Telemetry.post, motionMailboxes] using hstop
      · simpa [motionCommand, Telemetry.post, motionMailboxes] using hduty
      · simp [motionCommand]
  | stop =>
      refine ⟨?_, ?_, ?_, ?_⟩
      · simpa [motionCommand, Telemetry.post, motionMailboxes] using hstart
      · simp [motionCommand, Telemetry.post, motionMailboxes]
      · simpa [motionCommand, Telemetry.post, motionMailboxes] using hduty
      · simp [motionCommand]
  | duty request =>
      refine ⟨?_, ?_, ?_, ?_⟩
      · simpa [motionCommand, Telemetry.post, motionMailboxes] using hstart
      · simpa [motionCommand, Telemetry.post, motionMailboxes] using hstop
      · exact iff_of_true rfl ⟨request, by simp [motionCommand]⟩
      · simp [motionCommand, Telemetry.post, motionMailboxes]
  | imuCal request =>
      rw [motionCommand, Option.toList_none, List.append_nil]
      exact ⟨hstart, hstop, hduty, hlatest⟩

theorem motionMailboxes_congr {t t' : Telemetry} (h : SameRequests t t') :
    motionMailboxes t = motionMailboxes t' := by
  rw [motionMailboxes, h.start, h.stop, h.dutyPending, h.duty]
  rfl

theorem motionMailboxes_telemetryTick (nowMs : UInt32) (t : Telemetry) :
    motionMailboxes (telemetryTick nowMs t).1 = motionMailboxes t := by
  rw [telemetryTick]
  split_ifs <;> rfl

/-- The invariant: the mailboxes hold the commands that the observer wrote down. -/
def Inv (o : Observed F) : Prop := Recorded (motionMailboxes o.firmware.telemetry) o.commands

theorem inv_start (b : Board) : Inv (start b : Observed F) := recorded_nil _

theorem inv_step {o : Observed F} (h : Inv o) (e : Event F) : Inv (step o e) := by
  cases e with
  | rxByte byte =>
      have hsame := motionMailboxes_congr
        (sameRequests_telemetryOnRxByte byte o.firmware.telemetry)
      show Recorded (motionMailboxes (telemetryOnRxByte byte o.firmware.telemetry).1)
        (o.commands ++ (received o byte).toList)
      rw [hsame, received]
      cases hr : completedRequest byte o.firmware.telemetry with
      | none =>
          rw [Option.bind_none, Option.toList_none, List.append_nil]
          exact h
      | some r => exact h.post r
  | control nowMs =>
      show Recorded (motionMailboxes (controlTask nowMs o.firmware).telemetry) []
      rw [telemetry_controlTask]
      exact recorded_nil _
  | telemetry nowMs =>
      show Recorded (motionMailboxes (telemetryTick nowMs o.firmware.telemetry).1) o.commands
      rw [motionMailboxes_telemetryTick]
      exact h
  | _ => exact h

/-! ### One control iteration -/

section Control

variable (nowMs : UInt32) (fw : Firmware F)

theorem state_stateTick : (stateTick nowMs fw).ctx.state = nextState fw :=
  (appStateTick_spec nowMs (fw.setTick nowMs)).1

theorem direct_stateTick : (stateTick nowMs fw).ctx.chassis.direct = nextDirect nowMs fw :=
  (appStateTick_spec nowMs (fw.setTick nowMs)).2.1

theorem armsDuty_iff : ArmsDuty nowMs fw ↔ fw.telemetry.dutyRequestPending = true := by
  have hstop := (takeStopRequest_spec (fw.setTick nowMs)).2.2.1
  have hstart := (takeStartRequest_spec (takeStopRequest (fw.setTick nowMs))).2.2.1
  have hpending : (takeStartRequest (takeStopRequest (fw.setTick nowMs))).telemetry.dutyRequestPending
      = fw.telemetry.dutyRequestPending := by
    rw [hstart, hstop]
    rfl
  rw [ArmsDuty, telemetryConsumeDutyRequest, hpending]
  cases fw.telemetry.dutyRequestPending with
  | false => simp
  | true => simp

variable {fw} (hready : fw.ctx.imuReady = true)
include hready

omit [CMath F] in
theorem nextState_of_ready :
    nextState fw =
      if fw.telemetry.dutyRequestPending then .idle
      else if fw.telemetry.startRequest then .run
      else if fw.telemetry.stopRequest then .idle
      else fw.ctx.state := by
  simp only [nextState, hready, and_true]

theorem obeys_stop_iff (hstop : fw.telemetry.stopRequest = true) :
    Obeys nowMs fw .stop ↔
      fw.telemetry.startRequest = false ∧ fw.telemetry.dutyRequestPending = false := by
  rw [Obeys, state_stateTick, armsDuty_iff, nextState_of_ready hready, hstop]
  cases fw.telemetry.dutyRequestPending <;> cases fw.telemetry.startRequest <;> simp

theorem obeys_start_iff (hstart : fw.telemetry.startRequest = true) :
    Obeys nowMs fw .start ↔ fw.telemetry.dutyRequestPending = false := by
  rw [Obeys, state_stateTick, nextState_of_ready hready, hstart]
  cases fw.telemetry.dutyRequestPending <;> simp

omit hready in
/-- A duty request that was the last to be received is obeyed in any case. -/
theorem obeys_duty (request : TelemetryDutyRequest)
    (hpending : fw.telemetry.dutyRequestPending = true)
    (hlatest : fw.telemetry.dutyRequest = request) : Obeys nowMs fw (.duty request) := by
  rw [Obeys, state_stateTick, direct_stateTick, nextState, nextDirect, hpending, hlatest]
  exact ⟨rfl, rfl⟩

end Control

/-- Nothing but stops: no start and no duty request. -/
theorem only_stops_iff (commands : List MotionCommand) :
    (∀ command ∈ commands, command = .stop) ↔
      .start ∉ commands ∧ ∀ request, .duty request ∉ commands := by
  refine ⟨?_, ?_⟩
  · intro hall
    refine ⟨?_, ?_⟩
    · intro hmem
      cases hall _ hmem
    · intro request hmem
      cases hall _ hmem
  · rintro ⟨hnostart, hnoduty⟩ command hmem
    cases command with
    | start => exact absurd hmem hnostart
    | stop => rfl
    | duty request => exact absurd hmem (hnoduty request)

section Recorded

variable {o : Observed F} (h : Inv o) (nowMs : UInt32) (hready : o.firmware.ctx.imuReady = true)
include h

omit [CMath F] in
theorem startRequest_eq_false : o.firmware.telemetry.startRequest = false ↔ .start ∉ o.commands := by
  rw [← Bool.not_eq_true]
  exact not_congr h.start

omit [CMath F] in
theorem dutyRequestPending_eq_false :
    o.firmware.telemetry.dutyRequestPending = false ↔
      ∀ request, .duty request ∉ o.commands := by
  rw [← Bool.not_eq_true, ← not_exists]
  exact not_congr h.duty

include hready

theorem obeys_last_stop_iff (hlast : o.commands.getLast? = some .stop) :
    Obeys nowMs o.firmware .stop ↔ ∀ command ∈ o.commands, command = .stop := by
  have hstop := h.stop.mpr (List.mem_of_getLast? hlast)
  rw [obeys_stop_iff nowMs hready hstop, startRequest_eq_false h, dutyRequestPending_eq_false h,
    only_stops_iff]

theorem obeys_last_start_iff (hlast : o.commands.getLast? = some .start) :
    Obeys nowMs o.firmware .start ↔ ∀ request, .duty request ∉ o.commands := by
  have hstart := h.start.mpr (List.mem_of_getLast? hlast)
  rw [obeys_start_iff nowMs hready hstart, dutyRequestPending_eq_false h]

end Recorded

theorem lastCommandWins_step_iff {o : Observed F} (h : Inv o) (e : Event F) :
    LastCommandWins o e ↔ NotOverruled o e := by
  refine forall_congr' fun nowMs => forall_congr' fun _ => forall_congr' fun hready => ?_
  refine ⟨?_, ?_⟩
  · intro hwins
    refine ⟨?_, ?_⟩
    · intro hlast
      exact (obeys_last_stop_iff h nowMs hready hlast).mp (hwins .stop hlast)
    · intro hlast
      exact (obeys_last_start_iff h nowMs hready hlast).mp (hwins .start hlast)
  · rintro ⟨honlystops, hnoduty⟩ command hlast
    cases command with
    | stop => exact (obeys_last_stop_iff h nowMs hready hlast).mpr (honlystops hlast)
    | start => exact (obeys_last_start_iff h nowMs hready hlast).mpr (hnoduty hlast)
    | duty request =>
        have hpending := h.duty.mpr ⟨request, List.mem_of_getLast? hlast⟩
        exact obeys_duty nowMs request hpending (h.latest request hlast)

/-! ### Runs -/

/-- Over every run of the system: with the IMU ready, every control iteration obeys the
last motion command received since the one before, if and only if each of them finds,
with a last stop, nothing but stops, and with a last start, no duty request. -/
theorem lastCommandWins_iff (b : Board) (run : List (Event F)) :
    EachStep step LastCommandWins (start b) run ↔ EachStep step NotOverruled (start b) run :=
  eachStep_congr (fun _ e h _ => inv_step h e) (fun _ e h => lastCommandWins_step_iff h e)
    (inv_start b)

/-- What the IMU task publishes when it has come up. -/
noncomputable def imuUp : ImuService ℝ :=
  { (imuServiceInit : ImuService ℝ) with
    snapshot := { ImuSnapshot.zero with state := .ready, ready := true } }

/-- `s` and then `x` between two iterations, with the IMU ready: the car runs. -/
theorem stop_overruled :
    ¬ EachStep step LastCommandWins (start Board.atReset : Observed ℝ)
      [.imuService imuUp, .fast 5, .rxByte 115, .rxByte 120, .control 10] := by
  rintro ⟨-, -, -, -, hlast, -⟩
  have hidle := (hlast 10 rfl rfl .stop rfl).1
  rw [state_stateTick] at hidle
  cases hidle

end NuedcFirmware.App.LastCommand
