import NuedcFirmware.Lib.Mailbox
import NuedcFirmware.Lib.Run
import NuedcFirmware.Modules.Telemetry

/-!
The four request mailboxes between the UART receive interrupt and the tasks.

A consumer is given in its single accesses to the shared variables, so that the
interrupt can come between any two of them. Reading and clearing a mailbox are
separate accesses; a request that arrives in between is cleared unread. The
theorem of this module says that this is the only way to lose one.
-/

namespace NuedcFirmware.Modules.RequestMailbox

open NuedcFirmware.Lib

/-- `s_start_request`, `s_stop_request`, `s_duty_request_pending` with
`s_duty_request`, and `s_imu_cal_request`. -/
inductive Mailbox
  | start
  | stop
  | duty
  | imuCal
  deriving DecidableEq

def mailboxOf : Request → Mailbox
  | .start => .start
  | .stop => .stop
  | .duty _ => .duty
  | .imuCal _ => .imuCal

/-- The request a mailbox holds. -/
def content (t : Telemetry) : Mailbox → Option Request
  | .start => if t.startRequest then some .start else none
  | .stop => if t.stopRequest then some .stop else none
  | .duty => if t.dutyRequestPending then some (.duty t.dutyRequest) else none
  | .imuCal =>
      match t.imuCalRequest with
      | .none => none
      | request => some (.imuCal request)

/-- How far `Telemetry_ConsumeDutyRequest` has come: the fields copied so far. -/
inductive DutyCall
  | idle
  | checked
  | left (leftPwm : ℤ)
  | right (leftPwm rightPwm : ℤ)
  | copied (request : TelemetryDutyRequest)

/-- The shared variables, what each consumer has copied in its current call, and
the traffic of each mailbox. -/
structure Machine where
  telemetry : Telemetry
  startCopy : Option Bool
  stopCopy : Option Bool
  dutyCall : DutyCall
  imuCalCopy : Option TelemetryImuCalRequest
  history : Mailbox → List (Traffic Request)

inductive Event
  | rxByte (byte : UInt8)
  | access (m : Mailbox)

/-- A consumer's next access is its clearing store: the copy it will return. -/
def returning (s : Machine) : Mailbox → Option (Option Request)
  | .start => s.startCopy.map fun value => if value then some .start else none
  | .stop => s.stopCopy.map fun value => if value then some .stop else none
  | .duty =>
      match s.dutyCall with
      | .copied request => some (some (.duty request))
      | _ => none
  | .imuCal => s.imuCalCopy.map fun value =>
      match value with
      | .none => none
      | request => some (.imuCal request)

/-- The observer notes down what a finishing call returns. -/
def Machine.noteReturned (s : Machine) (m : Mailbox) (copy : Option Request) : Machine :=
  { s with history :=
      Function.update s.history m (s.history m ++ (copy.map Traffic.returned).toList) }

/-- The next access of the consumer of `m`. -/
def access (m : Mailbox) (s : Machine) : Machine :=
  let t := s.telemetry
  match m with
  | .start =>
      match s.startCopy with
      | none => { s with startCopy := some t.startRequest }
      | some value =>
          { s with telemetry := { t with startRequest := false }, startCopy := none }
            |>.noteReturned .start (if value then some .start else none)
  | .stop =>
      match s.stopCopy with
      | none => { s with stopCopy := some t.stopRequest }
      | some value =>
          { s with telemetry := { t with stopRequest := false }, stopCopy := none }
            |>.noteReturned .stop (if value then some .stop else none)
  | .duty =>
      match s.dutyCall with
      | .idle => if t.dutyRequestPending then { s with dutyCall := .checked } else s
      | .checked => { s with dutyCall := .left t.dutyRequest.leftPwm }
      | .left leftPwm => { s with dutyCall := .right leftPwm t.dutyRequest.rightPwm }
      | .right leftPwm rightPwm =>
          { s with dutyCall := .copied ⟨leftPwm, rightPwm, t.dutyRequest.holdMs⟩ }
      | .copied request =>
          { s with telemetry := { t with dutyRequestPending := false }, dutyCall := .idle }
            |>.noteReturned .duty (some (.duty request))
  | .imuCal =>
      match s.imuCalCopy with
      | none => { s with imuCalCopy := some t.imuCalRequest }
      | some value =>
          { s with telemetry := { t with imuCalRequest := .none }, imuCalCopy := none }
            |>.noteReturned .imuCal (match value with
              | .none => none
              | request => some (.imuCal request))

def step (s : Machine) : Event → Machine
  | .rxByte byte =>
      { s with
        telemetry := (telemetryOnRxByte byte s.telemetry).1
        history := match completedRequest byte s.telemetry with
          | some r => Function.update s.history (mailboxOf r)
              (s.history (mailboxOf r) ++ [.posted r])
          | none => s.history }
  | .access m => access m s

/-- All mailboxes empty and no call under way. -/
def start : Machine where
  telemetry := Telemetry.initial
  startCopy := none
  stopCopy := none
  dutyCall := .idle
  imuCalCopy := none
  history _ := []

/-- The accesses of an undisturbed call are the consumer itself. -/
theorem telemetry_exec_access (t : Telemetry) (history : Mailbox → List (Traffic Request)) :
    let s : Machine := ⟨t, none, none, .idle, none, history⟩
    (exec step s [.access .start, .access .start]).telemetry =
        (telemetryConsumeStartRequest t).2 ∧
      (exec step s [.access .stop, .access .stop]).telemetry =
        (telemetryConsumeStopRequest t).2 ∧
      (exec step s (List.replicate (if t.dutyRequestPending then 5 else 1)
        (.access .duty))).telemetry = (telemetryConsumeDutyRequest t).2 ∧
      (exec step s [.access .imuCal, .access .imuCal]).telemetry =
        (telemetryConsumeImuCalRequest t).2 := by
  refine ⟨rfl, rfl, ?_, rfl⟩
  cases hpending : t.dutyRequestPending with
  | false => simp [step, access, telemetryConsumeDutyRequest, hpending]
  | true =>
      simp [List.replicate, step, access, telemetryConsumeDutyRequest, hpending,
        Machine.noteReturned]

/-- A mailbox together with its traffic. -/
def box (s : Machine) (m : Mailbox) : Box Request := ⟨content s.telemetry m, s.history m⟩

/-- No request is lost and none is mixed: every request posted to a mailbox has
been returned since, is pending, or is superseded; and every one returned was
posted, in all its fields. -/
def NoRequestLost (s : Machine) : Prop := ∀ m, Accounted (box s m) ∧ Faithful (box s m)

/-- A clearing store finds in the mailbox exactly the request its call has
copied. -/
def CopyCurrent (s : Machine) (e : Event) : Prop :=
  ∀ m copy, e = .access m → returning s m = some copy → content s.telemetry m = copy

/-! ### What one step does to a mailbox -/

theorem content_congr {t t' : Telemetry} (h : SameRequests t t') : content t = content t' := by
  funext m
  cases m <;> simp [content, h.start, h.stop, h.dutyPending, h.duty, h.imuCal]

/-- The receiver never posts the empty calibration request. -/
theorem completedRequest_ne (byte : UInt8) (t : Telemetry) :
    completedRequest byte t ≠ some (.imuCal .none) := by
  rw [completedRequest]
  split_ifs
  · simp
  · simp
  · cases parseCommand (lineText t.cmdBuf) <;> simp [Command.request]
  · simp

theorem content_post {t : Telemetry} {r : Request} (hr : r ≠ .imuCal .none) (m : Mailbox) :
    content (t.post r) m = if m = mailboxOf r then some r else content t m := by
  cases r with
  | imuCal request =>
      cases request with
      | none => exact absurd rfl hr
      | start => cases m <;> rfl
      | cancel => cases m <;> rfl
  | _ => cases m <;> rfl

/-- A byte posts to the mailbox of the request it completes, and to no other. -/
theorem box_rxByte (s : Machine) (byte : UInt8) (m : Mailbox) :
    box (step s (.rxByte byte)) m =
      match completedRequest byte s.telemetry with
      | some r => if m = mailboxOf r then (box s m).post r else box s m
      | none => box s m := by
  have hsame := content_congr (sameRequests_telemetryOnRxByte byte s.telemetry)
  have hne := completedRequest_ne byte s.telemetry
  cases hr : completedRequest byte s.telemetry with
  | none =>
      rw [hr] at hsame
      simp [box, step, hsame, hr]
  | some r =>
      rw [hr] at hsame hne
      have hpost := content_post (t := s.telemetry) (r := r) (fun h => hne (by rw [h])) m
      by_cases hm : m = mailboxOf r
      · rw [if_pos hm] at hpost
        subst hm
        simp [box, step, hsame, hr, hpost, Box.post]
      · simp [box, step, hsame, hr, hpost, hm]

/-- An access that is not the clearing store changes no mailbox; the clearing
store takes the copy. -/
theorem box_access (s : Machine) (m m' : Mailbox) :
    box (access m s) m' =
      match returning s m with
      | some copy => if m' = m then (box s m).take copy else box s m'
      | none => box s m' := by
  -- per consumer: the load leaves the shared variables alone, the store takes the copy
  cases m with
  | start =>
      cases hcopy : s.startCopy with
      | none => simp [access, returning, hcopy, box]
      | some value =>
          cases m' <;>
            simp [access, returning, hcopy, box, content, Box.take, Machine.noteReturned]
  | stop =>
      cases hcopy : s.stopCopy with
      | none => simp [access, returning, hcopy, box]
      | some value =>
          cases m' <;>
            simp [access, returning, hcopy, box, content, Box.take, Machine.noteReturned]
  | duty =>
      cases hcall : s.dutyCall with
      | copied request =>
          cases m' <;>
            simp [access, returning, hcall, box, content, Box.take, Machine.noteReturned]
      | idle =>
          simp only [access, returning, hcall]
          split <;> rfl
      | _ => simp [access, returning, hcall, box]
  | imuCal =>
      cases hcopy : s.imuCalCopy with
      | none => simp [access, returning, hcopy, box]
      | some value =>
          cases m' <;>
            simp [access, returning, hcopy, box, content, Box.take, Machine.noteReturned]

/-- The consumer of the mailbox has seen a request in it and not yet cleared it. -/
def Holding (s : Machine) : Mailbox → Prop
  | .duty => s.dutyCall ≠ .idle
  | m => ∃ r, returning s m = some (some r)

theorem holding_of_returning {s : Machine} {m : Mailbox} {r : Request}
    (h : returning s m = some (some r)) : Holding s m := by
  cases m with
  | duty =>
      intro hidle
      simp [returning, hidle] at h
  | _ => exact ⟨r, h⟩

/-- An access leaves the other consumers where they are; its own consumer holds a
request afterwards only if the mailbox was full, and never after the store. -/
theorem holding_access {s : Machine} {m m' : Mailbox} (h : Holding (access m s) m') :
    (m' ≠ m ∧ Holding s m') ∨
      (m' = m ∧ returning s m = none ∧ (Holding s m ∨ content s.telemetry m ≠ none)) := by
  by_cases hm : m' = m
  · right
    subst hm
    -- a consumer that holds a request after its access has just loaded it
    cases m' with
    | start =>
        cases hcopy : s.startCopy with
        | none =>
            refine ⟨rfl, by simp [returning, hcopy], Or.inr ?_⟩
            simpa [Holding, returning, access, hcopy, content] using h
        | some value => simp [Holding, returning, access, hcopy, Machine.noteReturned] at h
    | stop =>
        cases hcopy : s.stopCopy with
        | none =>
            refine ⟨rfl, by simp [returning, hcopy], Or.inr ?_⟩
            simpa [Holding, returning, access, hcopy, content] using h
        | some value => simp [Holding, returning, access, hcopy, Machine.noteReturned] at h
    | duty =>
        cases hcall : s.dutyCall with
        | idle =>
            refine ⟨rfl, by simp [returning, hcall], Or.inr ?_⟩
            by_contra hnone
            apply h
            have hpending : s.telemetry.dutyRequestPending = false := by
              simpa [content] using hnone
            simp [access, hcall, hpending]
        | copied request => simp [Holding, access, hcall, Machine.noteReturned] at h
        | _ =>
            refine ⟨rfl, by simp [returning, hcall], Or.inl ?_⟩
            simp [Holding, hcall]
    | imuCal =>
        cases hcopy : s.imuCalCopy with
        | none =>
            refine ⟨rfl, by simp [returning, hcopy], Or.inr ?_⟩
            obtain ⟨r, hr⟩ := h
            simp only [returning, access, hcopy, Option.map_some, Option.some.injEq] at hr
            simp [content, hr]
        | some value => simp [Holding, returning, access, hcopy, Machine.noteReturned] at h
  · left
    refine ⟨hm, ?_⟩
    revert h
    unfold access
    cases m <;> dsimp only <;> split <;> (try split) <;> cases m' <;>
      first | exact absurd rfl hm | exact id

/-! ### Runs -/

/-- The invariant: every mailbox is good, and a consumer that holds a request has
not cleared the mailbox it found it in. -/
structure Inv (s : Machine) : Prop where
  good : ∀ m, (box s m).Good
  held : ∀ m, Holding s m → content s.telemetry m ≠ none

theorem inv_start : Inv start where
  good m := by
    have : box start m = Box.empty := by cases m <;> rfl
    rw [this]
    exact Box.good_empty
  held m h := by
    cases m with
    | duty => exact absurd rfl h
    | _ => simp [Holding, returning, start] at h

theorem inv_rxByte {s : Machine} (h : Inv s) (byte : UInt8) : Inv (step s (.rxByte byte)) where
  good m := by
    rw [box_rxByte]
    split
    · split
      · exact (h.good m).post _
      · exact h.good m
    · exact h.good m
  held m hholding := by
    have hkept : content s.telemetry m ≠ none := by
      apply h.held m
      cases m <;> exact hholding
    -- a post fills a mailbox and never empties one
    have hcontent := congrArg Box.content (box_rxByte s byte m)
    show (box (step s (.rxByte byte)) m).content ≠ none
    rw [hcontent]
    split
    · split
      · simp [Box.post]
      · exact hkept
    · exact hkept

theorem inv_access {s : Machine} (h : Inv s) {m : Mailbox} (hcurrent : CopyCurrent s (.access m)) :
    Inv (step s (.access m)) where
  good m' := by
    have hbox := box_access s m m'
    change (box (access m s) m').Good
    rw [hbox]
    cases hcopy : returning s m with
    | none => exact h.good m'
    | some copy =>
        dsimp only
        split
        · exact (h.good m).take (hcurrent m copy rfl hcopy)
        · exact h.good m'
  held m' hholding := by
    have hcontent := congrArg Box.content (box_access s m m')
    change (box (access m s) m').content ≠ none
    rw [hcontent]
    rcases holding_access hholding with ⟨hm, hold⟩ | ⟨rfl, hnone, hold⟩
    · -- the access empties at most another mailbox
      cases returning s m with
      | none => exact h.held m' hold
      | some copy =>
          dsimp only
          rw [if_neg hm]
          exact h.held m' hold
    · rw [hnone]
      rcases hold with hold | hfull
      · exact h.held m' hold
      · exact hfull

theorem inv_step {s : Machine} {e : Event} (h : Inv s) (hcurrent : CopyCurrent s e) :
    Inv (step s e) := by
  cases e with
  | rxByte byte => exact inv_rxByte h byte
  | access m => exact inv_access h hcurrent

theorem Inv.noRequestLost {s : Machine} (h : Inv s) : NoRequestLost s :=
  fun m => ⟨(h.good m).accounted, (h.good m).faithful⟩

/-- A clearing store that finds another request than it has copied loses it. -/
theorem copyCurrent_of_noRequestLost {s : Machine} {e : Event} (h : Inv s)
    (hlost : NoRequestLost (step s e)) : CopyCurrent s e := by
  rintro m copy rfl hcopy
  by_contra hne
  -- the store finds a request: one it has not copied, or the copied one is still there
  have hfull : content s.telemetry m ≠ none := by
    cases copy with
    | none => exact hne
    | some r => exact h.held m (holding_of_returning hcopy)
  obtain ⟨v, hv⟩ := Option.ne_none_iff_exists'.mp hfull
  have htake : box (step s (.access m)) m = (box s m).take copy := by
    have hbox := box_access s m m
    rw [hcopy] at hbox
    exact hbox.trans (if_pos rfl)
  have hacc := (hlost m).1
  rw [htake] at hacc
  exact not_accounted_take (h.good m).latest hv hne hacc

/-- Over every interleaving of the receive interrupt with the accesses of the
consumers: no request is ever lost or mixed if and only if each clearing store
finds the request its call has copied. -/
theorem noRequestLost_iff (run : List Event) :
    EachState step NoRequestLost start run ↔ EachStep step CopyCurrent start run := by
  rw [eachState_iff_eachStep]
  have hiff (s : Machine) (e : Event) (h : Inv s) :
      NoRequestLost (step s e) ↔ CopyCurrent s e :=
    ⟨copyCurrent_of_noRequestLost h, fun hcurrent => (inv_step h hcurrent).noRequestLost⟩
  rw [eachStep_congr (fun _ _ h hcurrent => inv_step h hcurrent) hiff inv_start]
  exact and_iff_right inv_start.noRequestLost

/-- The interrupt receives `x` between the read and the clearing of the stop
flag: the stop request is gone. -/
theorem stop_lost :
    ¬ EachState step NoRequestLost start [.access .stop, .rxByte 120, .access .stop] := by
  intro h
  have hacc := (h _ [] (List.append_nil _).symm .stop).1
  have hstop := hacc [] .stop [] rfl
  revert hstop
  simp [box, content, exec, step, access, start, Machine.noteReturned, Telemetry.initial,
    telemetryOnRxByte]

end NuedcFirmware.Modules.RequestMailbox
