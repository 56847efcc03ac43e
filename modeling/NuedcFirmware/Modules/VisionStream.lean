import NuedcFirmware.Modules.VisionParser

/-!
A stream of frames and what the vision parser answers.

Every call of the parser is given with the time and the event record it is made
with. From SYNC1 a transmitted frame is answered at its last byte by what the
frame says, and by nothing before, whatever the record of the parser still holds
of earlier traffic; and the parser is back in SYNC1.
-/

namespace NuedcFirmware.Modules.VisionStream

open NuedcFirmware.Lib VisionParser

/-- One call of `Dev_Vision_OnRxByte`. -/
structure Rx where
  byte : UInt8
  nowMs : UInt32
  event : Option DevVisionEvent

/-- What the caller of it sees. -/
structure Answer where
  returned : Bool
  event : Option DevVisionEvent
  deriving DecidableEq, Repr

/-- The answer that reports an event, or nothing. -/
def Rx.answer (rx : Rx) : Option DevVisionEvent → Answer
  | none => ⟨false, clearEvent rx.event⟩
  | some e => ⟨true, rx.event.map fun _ => e⟩

def result (vision : DevVision) (rx : Rx) : RxResult :=
  devVisionOnRxByte vision rx.byte rx.nowMs rx.event

def feed (vision : DevVision) (rx : Rx) : DevVision := (result vision rx).vision

def answer (vision : DevVision) (rx : Rx) : Answer :=
  ⟨(result vision rx).returned, (result vision rx).event⟩

/-- The answers to a list of calls. -/
def answers : DevVision → List Rx → List Answer
  | _, [] => []
  | vision, rx :: rest => answer vision rx :: answers (feed vision rx) rest

/-- The events among them. -/
def events (list : List Answer) : List (Option DevVisionEvent) :=
  (list.filter Answer.returned).map Answer.event

/-- The calls that bring a frame, the last one apart. -/
structure Transmission where
  frame : VisionFrame
  before : List Rx
  last : Rx
  carries : before.map Rx.byte ++ [last.byte] = frame.bytes

namespace Transmission

def calls (t : Transmission) : List Rx := t.before ++ [t.last]

/-- What the frame says at its end. -/
def event (t : Transmission) : Option DevVisionEvent := t.frame.event t.last.nowMs

/-- Nothing before the last byte, and there what the frame says. -/
def answers (t : Transmission) : List Answer :=
  t.before.map (fun rx => rx.answer none) ++ [t.last.answer t.event]

end Transmission

theorem answers_append (vision : DevVision) (calls calls' : List Rx) :
    answers vision (calls ++ calls') =
      answers vision calls ++ answers (exec feed vision calls) calls' := by
  induction calls generalizing vision with
  | nil => rfl
  | cons rx rest ih => simp [answers, ih]

@[simp] theorem events_append (list list' : List Answer) :
    events (list ++ list') = events list ++ events list' := by
  simp [events]

theorem answer_eq {vision : DevVision} {rx : Rx} {event : Option DevVisionEvent}
    (h : Answers vision rx.event (result vision rx) event) : answer vision rx = rx.answer event := by
  cases event with
  | none => rw [answer, h.1, h.2.1, Rx.answer]
  | some e => rw [answer, h.1, h.2.1, Rx.answer]

/-! ### A frame -/

/-- In the middle of a frame a byte of it is read on, without an answer. -/
theorem reading_feed {f : VisionFrame} {vision : DevVision} {pending : List UInt8} {rx : Rx}
    (h : Reading vision pending) {b : UInt8} {rest : List UInt8}
    (hf : pending ++ rx.byte :: b :: rest = f.bytes) :
    Reading (feed vision rx) (pending ++ [rx.byte]) ∧ answer vision rx = rx.answer none := by
  have hprefix : pending ++ [rx.byte] <+: f.bytes := ⟨b :: rest, by rw [← hf]; simp⟩
  cases progress_onRxByte h rx.byte rx.nowMs rx.event with
  | reading hnext hquiet => exact ⟨hnext, answer_eq hquiet⟩
  | rejected _ hb => exact absurd hprefix (hb f)
  | frame _ f' hframe =>
      -- no frame ends in the middle of another
      rw [hframe] at hprefix
      obtain rfl := VisionFrame.eq_of_bytes_prefix hprefix
      simp [← hf] at hframe

/-- The last byte of a frame brings its answer. -/
theorem sync1_feed {f : VisionFrame} {vision : DevVision} {pending : List UInt8} {rx : Rx}
    (h : Reading vision pending) (hf : pending ++ [rx.byte] = f.bytes) :
    (feed vision rx).state = .sync1 ∧ answer vision rx = rx.answer (f.event rx.nowMs) := by
  cases progress_onRxByte h rx.byte rx.nowMs rx.event with
  | reading hnext =>
      obtain ⟨f', hprefix, hne⟩ := hnext.begins
      rw [hf] at hprefix hne
      rw [VisionFrame.eq_of_bytes_prefix hprefix] at hne
      exact absurd rfl hne
  | rejected _ hb => exact absurd (by rw [hf]) (hb f)
  | frame hstate f' hframe hanswer =>
      have heq : f' = f := VisionFrame.eq_of_bytes_prefix (by rw [← hframe, hf])
      rw [heq] at hanswer
      exact ⟨hstate, answer_eq hanswer⟩

/-- The bytes of a frame, short of the last one. -/
theorem reading_exec {f : VisionFrame} {vision : DevVision} {pending : List UInt8} {calls : List Rx}
    (h : Reading vision pending) {b : UInt8} {rest : List UInt8}
    (hf : pending ++ calls.map Rx.byte ++ b :: rest = f.bytes) :
    Reading (exec feed vision calls) (pending ++ calls.map Rx.byte) ∧
      answers vision calls = calls.map fun rx => rx.answer none := by
  induction calls generalizing vision pending with
  | nil => exact ⟨by simpa using h, rfl⟩
  | cons rx calls ih =>
      have hsplit : pending ++ (rx :: calls).map Rx.byte =
          pending ++ [rx.byte] ++ calls.map Rx.byte := by simp
      rw [hsplit] at hf ⊢
      have hmore : ∃ c more, calls.map Rx.byte ++ b :: rest = c :: more := by
        cases calls with
        | nil => exact ⟨b, rest, rfl⟩
        | cons rx' calls => exact ⟨_, _, rfl⟩
      obtain ⟨c, more, hcons⟩ := hmore
      have hmiddle : pending ++ rx.byte :: c :: more = f.bytes := by
        rw [← hf, ← hcons]
        simp
      have hone := reading_feed h hmiddle
      obtain ⟨hreading, hquiet⟩ := ih hone.1 hf
      exact ⟨hreading, by rw [answers, hone.2, hquiet, List.map_cons]⟩

/-- A whole frame from SYNC1. -/
theorem answers_calls {vision : DevVision} (h : vision.state = .sync1) (t : Transmission) :
    answers vision t.calls = t.answers ∧ (exec feed vision t.calls).state = .sync1 := by
  have hcarries : [] ++ t.before.map Rx.byte ++ [t.last.byte] = t.frame.bytes := t.carries
  obtain ⟨hreading, hquiet⟩ := reading_exec (reading_nil h) hcarries
  have hlast := sync1_feed hreading hcarries
  refine ⟨?_, ?_⟩
  · rw [Transmission.calls, answers_append, hquiet, Transmission.answers]
    simp [answers, hlast.2, Transmission.event]
  · rw [Transmission.calls, exec_append]
    exact hlast.1

/-- The events of one frame. -/
theorem events_answers (t : Transmission) :
    events t.answers = (t.event.map fun e => t.last.event.map fun _ => e).toList := by
  have hquiet : events (t.before.map fun rx => rx.answer none) = [] := by
    simp [events, Rx.answer, List.filter_map, Function.comp_def]
  rw [Transmission.answers, events_append, hquiet]
  cases t.event <;> rfl

/-! ### Frames back to back -/

theorem answers_flatMap {vision : DevVision} (h : vision.state = .sync1) (ts : List Transmission) :
    answers vision (ts.flatMap Transmission.calls) = ts.flatMap Transmission.answers ∧
      (exec feed vision (ts.flatMap Transmission.calls)).state = .sync1 := by
  induction ts generalizing vision with
  | nil => exact ⟨rfl, h⟩
  | cons t ts ih =>
      obtain ⟨hanswers, hstate⟩ := answers_calls h t
      obtain ⟨hrest, hlast⟩ := ih hstate
      simp only [List.flatMap_cons]
      exact ⟨by rw [answers_append, hanswers, hrest], by rw [exec_append]; exact hlast⟩

theorem events_flatMap (ts : List Transmission) :
    events (ts.flatMap Transmission.answers) =
      ts.filterMap fun t => t.event.map fun e => t.last.event.map fun _ => e := by
  induction ts with
  | nil => rfl
  | cons t ts ih =>
      rw [List.flatMap_cons, events_append, ih, events_answers]
      cases he : t.event with
      | none => simp [he]
      | some e => simp [he]

/-- The parser decodes every sequence of frames from SYNC1: it answers each at its
last byte by what the frame says and is silent otherwise, so that the events are
those of the targets and commands in their order; it is in SYNC1 after each; and
what a target frame says is the target that it was made from. -/
theorem frames_decoded {vision : DevVision} (h : vision.state = .sync1) (ts : List Transmission) :
    answers vision (ts.flatMap Transmission.calls) = ts.flatMap Transmission.answers ∧
      events (answers vision (ts.flatMap Transmission.calls)) =
        (ts.filterMap fun t => t.event.map fun e => t.last.event.map fun _ => e) ∧
      (∀ n, (exec feed vision ((ts.take n).flatMap Transmission.calls)).state = .sync1) ∧
      ∀ t ∈ ts, ∀ target more hmore, t.frame = VisionFrame.ofTarget target more hmore →
        target.Fits → t.event = some ⟨.target, { target with tsMs := t.last.nowMs }, 0, 1⟩ := by
  refine ⟨(answers_flatMap h ts).1, ?_, fun n => (answers_flatMap h (ts.take n)).2, ?_⟩
  · rw [(answers_flatMap h ts).1, events_flatMap]
  · intro t _ target more hmore hframe hfits
    rw [Transmission.event, hframe]
    exact VisionFrame.event_ofTarget more hmore hfits _

/-- A command frame whose payload looks like the beginning of a frame. -/
def commandOfSync : Transmission where
  frame := ⟨2, [0xAA, 0x55], by simp, by simp [devVisionMaxPayload]⟩
  before := [0xAA, 0x55, 2, 2, 0xAA, 0x55, 0xFF, 0x0D].map fun b => ⟨b, 0, some .zero⟩
  last := ⟨0x0A, 7, some .zero⟩
  carries := by decide

/-- Two of them, over the record that a longer frame has left behind. -/
theorem frames_decoded_twice :
    events (answers { devVisionInit with len := 9, index := 9, payload := fun _ => 0x0A }
      ([commandOfSync, commandOfSync].flatMap Transmission.calls)) =
        [some ⟨.command, .zero, 0xAA, 2⟩, some ⟨.command, .zero, 0xAA, 2⟩] :=
  (frames_decoded rfl [commandOfSync, commandOfSync]).2.1

end NuedcFirmware.Modules.VisionStream
