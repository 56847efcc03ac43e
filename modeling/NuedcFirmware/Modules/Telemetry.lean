import NuedcFirmware.Lib.CText

/-!
The telemetry module `telemetry.c`: the byte-wise command receiver, which runs in
the UART receive interrupt, the requests it leaves for the tasks to consume, and
the pacing of the status lines.

A function that prints returns the texts it prints; the three status lines of
`Telemetry_Tick` only show bound variables and are returned by kind.
-/

namespace NuedcFirmware.Modules

open NuedcFirmware.Lib

structure TelemetryDutyRequest where
  leftPwm : ℤ
  rightPwm : ℤ
  holdMs : UInt32
  deriving DecidableEq, Repr

inductive TelemetryImuCalRequest
  | none
  | start
  | cancel
  deriving DecidableEq, Repr

/-- The static state of `telemetry.c`. The command buffer is given by the bytes
stored so far, so `s_cmd_idx` is its length. -/
structure Telemetry where
  periodMs : ℕ
  lastEmitMs : UInt32
  emitPrimed : Bool
  enabled : Bool
  rawLineEnabled : Bool
  rawImuEnabled : Bool
  startRequest : Bool
  stopRequest : Bool
  dutyRequestPending : Bool
  imuCalRequest : TelemetryImuCalRequest
  dutyRequest : TelemetryDutyRequest
  cmdBuf : List UInt8
  deriving DecidableEq, Repr

def cmdBufLen : ℕ := 80

namespace Telemetry

/-- The initial values of the static variables. -/
def initial : Telemetry where
  periodMs := 10
  lastEmitMs := 0
  emitPrimed := false
  enabled := true
  rawLineEnabled := false
  rawImuEnabled := false
  startRequest := false
  stopRequest := false
  dutyRequestPending := false
  imuCalRequest := .none
  dutyRequest := ⟨0, 0, 0⟩
  cmdBuf := []

end Telemetry

/-! ### Consuming requests -/

def telemetryConsumeStartRequest (t : Telemetry) : Bool × Telemetry :=
  (t.startRequest, { t with startRequest := false })

def telemetryConsumeStopRequest (t : Telemetry) : Bool × Telemetry :=
  (t.stopRequest, { t with stopRequest := false })

def telemetryConsumeDutyRequest (t : Telemetry) : Option TelemetryDutyRequest × Telemetry :=
  if !t.dutyRequestPending then (none, t)
  else (some t.dutyRequest, { t with dutyRequestPending := false })

def telemetryConsumeImuCalRequest (t : Telemetry) : TelemetryImuCalRequest × Telemetry :=
  (t.imuCalRequest, { t with imuCalRequest := .none })

/-! ### Status lines -/

inductive StatusLine
  | chassis
  | line
  | imu
  deriving DecidableEq, Repr

/-- The lines that are due, by the settings. -/
def Telemetry.statusLines (t : Telemetry) : List StatusLine :=
  (if t.enabled then .chassis :: (if t.rawLineEnabled then [.line] else []) else []) ++
    if t.rawImuEnabled then [.imu] else []

def telemetryTick (tsMs : UInt32) (t : Telemetry) : Telemetry × List StatusLine :=
  if !t.enabled && !t.rawImuEnabled then (t, [])
  else if !t.emitPrimed then
    let t := { t with emitPrimed := true, lastEmitMs := tsMs }
    (t, t.statusLines)
  else if (tsMs - t.lastEmitMs).toNat < t.periodMs then (t, [])
  else
    let t := { t with lastEmitMs := tsMs }
    (t, t.statusLines)

/-! ### The command receiver -/

/-- `parse_i16`. -/
def parseI16 (s : List UInt8) : ℤ := strtol s

def comma : UInt8 := 44

/-- `handle_duty`, on the text behind `$DUTY,`. -/
def handleDuty (args : List UInt8) (t : Telemetry) : Telemetry × List String :=
  match cutAt comma args with
  | (_, none) => (t, ["$ERR,duty,parse\r\n"])
  | (left, some p1) =>
      let (right, p2) := cutAt comma p1
      let request : TelemetryDutyRequest :=
        { leftPwm := toInt16 (parseI16 left)
          rightPwm := toInt16 (parseI16 right)
          holdMs := match p2 with
            | some hold => strtoul hold
            | none => 800 }
      ({ t with dutyRequest := request, dutyRequestPending := true },
        ["$OK,duty," ++ toString request.leftPwm ++ "," ++ toString request.rightPwm ++ "," ++
          toString request.holdMs ++ "\r\n"])

/-- What `strncmp` against a keyword decides, with the text behind the keyword. -/
def argument (keyword line : List UInt8) : Option (List UInt8) :=
  if line.take keyword.length = keyword then some (line.drop keyword.length) else none

/-- The commands `handle_line` knows, with the texts behind their keywords. -/
inductive Command
  | start
  | stop
  | pause
  | resume
  | rate (hz : List UInt8)
  | rawLine (on : List UInt8)
  | rawImu (on : List UInt8)
  | duty (args : List UInt8)
  | imuCalStart
  | imuCalCancel
  | dump
  | unknown
  | empty
  deriving DecidableEq, Repr

/-- The comparisons of `handle_line`, in its order. -/
def parseCommand (line : List UInt8) : Command :=
  if line = ascii "$START" ∨ line = ascii "$RUN" then .start
  else if line = ascii "$STOP" then .stop
  else if line = ascii "$PAUSE" then .pause
  else if line = ascii "$RESUME" then .resume
  else if let some hz := argument (ascii "$RATE,") line then .rate hz
  else if let some on := argument (ascii "$RAWLINE,") line then .rawLine on
  else if let some on := argument (ascii "$RAWIMU,") line then .rawImu on
  else if let some args := argument (ascii "$DUTY,") line then .duty args
  else if line = ascii "$IMUCAL,START" then .imuCalStart
  else if line = ascii "$IMUCAL,CANCEL" then .imuCalCancel
  else if line = ascii "$DUMP" then .dump
  else if line ≠ [] then .unknown
  else .empty

/-- `%u` of a flag. -/
def printFlag (on : Bool) : String := if on then "1" else "0"

/-- The branches of `handle_line`. -/
def runCommand (t : Telemetry) : Command → Telemetry × List String
  | .start => ({ t with startRequest := true }, ["$OK,start\r\n"])
  | .stop => ({ t with stopRequest := true }, ["$OK,stop\r\n"])
  | .pause => ({ t with enabled := false }, ["$OK,pause\r\n"])
  | .resume => ({ t with enabled := true }, ["$OK,resume\r\n"])
  | .rate arg =>
      let hz := atoi arg
      if hz ≥ 1 ∧ hz ≤ 500 then
        let periodMs := (1000 / hz).toNat
        ({ t with periodMs := if periodMs = 0 then 1 else periodMs },
          ["$OK,rate," ++ toString hz ++ "\r\n"])
      else (t, ["$ERR,rate,range\r\n"])
  | .rawLine arg =>
      let on := atoi arg ≠ 0
      ({ t with rawLineEnabled := on }, ["$OK,rawline," ++ printFlag on ++ "\r\n"])
  | .rawImu arg =>
      let on := atoi arg ≠ 0
      ({ t with rawImuEnabled := on }, ["$OK,rawimu," ++ printFlag on ++ "\r\n"])
  | .duty args => handleDuty args t
  | .imuCalStart => ({ t with imuCalRequest := .start }, ["$OK,imucal,start\r\n"])
  | .imuCalCancel => ({ t with imuCalRequest := .cancel }, ["$OK,imucal,cancel\r\n"])
  | .dump =>
      (t, ["$CFG,rate_ms," ++ toString t.periodMs ++ "\r\n",
        "$CFG,enabled," ++ printFlag t.enabled ++ "\r\n",
        "$CFG,rawline," ++ printFlag t.rawLineEnabled ++ "\r\n",
        "$CFG,rawimu," ++ printFlag t.rawImuEnabled ++ "\r\n"])
  | .unknown => (t, ["$ERR,unknown\r\n"])
  | .empty => (t, [])

/-- The line up to its first zero, carriage return or line feed. -/
def lineText (line : List UInt8) : List UInt8 :=
  line.takeWhile fun c => c ≠ 0 && c ≠ 13 && c ≠ 10

/-- `handle_line`. -/
def handleLine (line : List UInt8) (t : Telemetry) : Telemetry × List String :=
  runCommand t (parseCommand (lineText line))

/-- `Telemetry_OnRxByte`: `s` and `x` act at once, a line feed ends a line, and a
line that does not fit is dropped. -/
def telemetryOnRxByte (byte : UInt8) (t : Telemetry) : Telemetry × List String :=
  if byte = 115 then ({ t with startRequest := true }, [])
  else if byte = 120 then ({ t with stopRequest := true }, [])
  else if byte = 10 then
    let (t, replies) := handleLine t.cmdBuf t
    ({ t with cmdBuf := [] }, replies)
  else if byte = 13 then (t, [])
  else if t.cmdBuf.length < cmdBufLen - 1 then ({ t with cmdBuf := t.cmdBuf ++ [byte] }, [])
  else ({ t with cmdBuf := [] }, [])

/-! ### What a byte posts -/

/-- The request that the duty command posts, if its text parses. -/
def dutyArguments (args : List UInt8) : Option TelemetryDutyRequest :=
  let (left, rest) := cutAt comma args
  rest.map fun p1 =>
    let (right, p2) := cutAt comma p1
    { leftPwm := toInt16 (parseI16 left)
      rightPwm := toInt16 (parseI16 right)
      holdMs := (p2.map strtoul).getD 800 }

/-- A request the receiver leaves for a task. -/
inductive Request
  | start
  | stop
  | duty (request : TelemetryDutyRequest)
  | imuCal (request : TelemetryImuCalRequest)
  deriving DecidableEq, Repr

def Command.request : Command → Option Request
  | .start => some .start
  | .stop => some .stop
  | .duty args => (dutyArguments args).map .duty
  | .imuCalStart => some (.imuCal .start)
  | .imuCalCancel => some (.imuCal .cancel)
  | _ => none

/-- The request that a byte completes. -/
def completedRequest (byte : UInt8) (t : Telemetry) : Option Request :=
  if byte = 115 then some .start
  else if byte = 120 then some .stop
  else if byte = 10 then (parseCommand (lineText t.cmdBuf)).request
  else none

/-- The four mailboxes after a request. -/
def Telemetry.post (t : Telemetry) : Request → Telemetry
  | .start => { t with startRequest := true }
  | .stop => { t with stopRequest := true }
  | .duty request => { t with dutyRequest := request, dutyRequestPending := true }
  | .imuCal request => { t with imuCalRequest := request }

/-- Two telemetry states agree in the four mailboxes. -/
structure SameRequests (t t' : Telemetry) : Prop where
  start : t.startRequest = t'.startRequest
  stop : t.stopRequest = t'.stopRequest
  dutyPending : t.dutyRequestPending = t'.dutyRequestPending
  duty : t.dutyRequest = t'.dutyRequest
  imuCal : t.imuCalRequest = t'.imuCalRequest

theorem handleDuty_fst (args : List UInt8) (t : Telemetry) :
    (handleDuty args t).1 = (match dutyArguments args with
      | some request => t.post (.duty request)
      | none => t) := by
  rw [handleDuty, dutyArguments]
  -- without a first comma the command is refused, the second one is optional
  rcases hcut : cutAt comma args with ⟨left, _ | p1⟩
  · rfl
  · rcases hcut' : cutAt comma p1 with ⟨right, _ | p2⟩
    · simp [Telemetry.post, hcut']
    · simp [Telemetry.post, hcut']

theorem sameRequests_runCommand (t : Telemetry) (c : Command) :
    SameRequests (runCommand t c).1 (match c.request with
      | some r => t.post r
      | none => t) := by
  cases c with
  | duty args =>
      simp only [runCommand, handleDuty_fst, Command.request]
      cases dutyArguments args <;> exact ⟨rfl, rfl, rfl, rfl, rfl⟩
  | rate hz =>
      simp only [runCommand, Command.request]
      split <;> exact ⟨rfl, rfl, rfl, rfl, rfl⟩
  | _ => exact ⟨rfl, rfl, rfl, rfl, rfl⟩

/-- What a byte does to the mailboxes: it posts the request it completes, and
touches no other. -/
theorem sameRequests_telemetryOnRxByte (byte : UInt8) (t : Telemetry) :
    SameRequests (telemetryOnRxByte byte t).1 (match completedRequest byte t with
      | some r => t.post r
      | none => t) := by
  rw [telemetryOnRxByte, completedRequest]
  split_ifs with hs hx hnl hcr
  · exact ⟨rfl, rfl, rfl, rfl, rfl⟩
  · exact ⟨rfl, rfl, rfl, rfl, rfl⟩
  · -- the end of a line runs its command, and then empties the buffer
    have h := sameRequests_runCommand t (parseCommand (lineText t.cmdBuf))
    exact ⟨h.start, h.stop, h.dutyPending, h.duty, h.imuCal⟩
  · exact ⟨rfl, rfl, rfl, rfl, rfl⟩
  · exact ⟨rfl, rfl, rfl, rfl, rfl⟩
  · exact ⟨rfl, rfl, rfl, rfl, rfl⟩

end NuedcFirmware.Modules
