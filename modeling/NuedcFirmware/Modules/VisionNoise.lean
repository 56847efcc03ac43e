import NuedcFirmware.Modules.VisionStream
import Mathlib.Algebra.Group.Nat.Even
import Mathlib.Data.List.Infix

/-!
Line noise in front of a frame.

In SYNC2 the parser goes back to SYNC1 on every byte but `55`, and so it also does
on a second `AA`, which may be the first byte of a frame. Noise in which `AA 55`
does not occur leaves the parser in SYNC1 or SYNC2 as the `AA` bytes at its end are
even or odd in number, and in the second case the `AA` of the frame is taken for the
end of the noise.
-/

namespace NuedcFirmware.Modules.VisionNoise

open NuedcFirmware.Lib VisionParser VisionStream

/-- The pair `AA 55` does not occur. -/
def NoPair (bytes : List UInt8) : Prop := ¬ [0xAA, 0x55] <:+: bytes

instance (bytes : List UInt8) : Decidable (NoPair bytes) :=
  inferInstanceAs (Decidable ¬ [0xAA, 0x55] <:+: bytes)

/-- Behind the noise, the last byte of the frame brings the answer of the frame. -/
def Arrives (vision : DevVision) (noise : List Rx) (t : Transmission) : Prop :=
  answer (exec feed vision (noise ++ t.before)) t.last = t.last.answer t.event

/-- Read from its second byte on, the frame ends with another one that says the same. -/
def HidesCopy (f : VisionFrame) : Prop :=
  ∃ (before : List UInt8) (f' : VisionFrame), Skipped before ∧ f.bytes.tail = before ++ f'.bytes ∧
    ∀ nowMs, f'.event nowMs = f.event nowMs

theorem NoPair.of_append {bytes bytes' : List UInt8} (h : NoPair (bytes ++ bytes')) :
    NoPair bytes := by
  rintro ⟨before, after, hpair⟩
  exact h ⟨before, after ++ bytes', by rw [← hpair]; simp⟩

/-- Where an odd number of `AA` ends the noise, the next byte of it is no `55`. -/
theorem NoPair.ne_of_odd {bytes : List UInt8} {b : UInt8} (h : NoPair (bytes ++ [b]))
    (hodd : ¬ Even (trailing 0xAA bytes)) : b ≠ 0x55 := by
  rintro rfl
  apply h
  rcases List.eq_nil_or_concat bytes with rfl | ⟨before, a, rfl⟩
  · exact absurd (by simp) hodd
  · by_cases ha : a = 0xAA
    · exact ⟨before, [], by simp [ha]⟩
    · exact absurd (by simp [trailing_append_of_ne ha]) hodd

theorem state_feed_sync1 {vision : DevVision} (h : vision.state = .sync1) (rx : Rx) :
    (feed vision rx).state = if rx.byte = 0xAA then .sync2 else .sync1 := by
  simp only [feed, result, devVisionOnRxByte, h]
  split_ifs
  · rfl
  · exact h

theorem state_feed_sync2 {vision : DevVision} (h : vision.state = .sync2) (rx : Rx) :
    (feed vision rx).state = if rx.byte = 0x55 then .len else .sync1 := by
  simp only [feed, result, devVisionOnRxByte, h]

/-- Where noise leaves the parser. -/
theorem state_exec_noise {vision : DevVision} (h : vision.state = .sync1) {noise : List Rx}
    (hnoise : NoPair (noise.map Rx.byte)) :
    (exec feed vision noise).state =
      if Even (trailing 0xAA (noise.map Rx.byte)) then .sync1 else .sync2 := by
  induction noise using List.reverseRecOn with
  | nil => simpa using h
  | append_singleton noise rx ih =>
      rw [List.map_append, List.map_singleton] at hnoise ⊢
      have hstate := ih hnoise.of_append
      rw [exec_append, exec_cons, exec_nil]
      by_cases heven : Even (trailing 0xAA (noise.map Rx.byte))
      · rw [if_pos heven] at hstate
        rw [state_feed_sync1 hstate]
        by_cases hbyte : rx.byte = 0xAA
        · simp [hbyte, heven, Nat.even_add_one]
        · simp [hbyte, trailing_append_of_ne hbyte]
      · rw [if_neg heven] at hstate
        rw [state_feed_sync2 hstate, if_neg (hnoise.ne_of_odd heven)]
        by_cases hbyte : rx.byte = 0xAA
        · simp [hbyte, heven, Nat.even_add_one]
        · simp [trailing_append_of_ne hbyte]

/-- A skipped string takes the parser from SYNC1 to SYNC1. -/
theorem state_exec_skipped {bytes : List UInt8} (h : Skipped bytes) {vision : DevVision}
    (hstate : vision.state = .sync1) {calls : List Rx} (hcalls : calls.map Rx.byte = bytes) :
    (exec feed vision calls).state = .sync1 := by
  induction h generalizing calls with
  | nil =>
      rw [List.map_eq_nil_iff] at hcalls
      rw [hcalls]
      exact hstate
  | frame hbefore f ih =>
      obtain ⟨first, second, rfl, hfirst, hsecond⟩ := List.map_eq_append_iff.mp hcalls
      rw [exec_append]
      obtain ⟨calls, last, rfl⟩ : ∃ calls last, second = calls ++ [last] := by
        rcases List.eq_nil_or_concat' second with rfl | hconcat
        · simp [VisionFrame.bytes, VisionFrame.body] at hsecond
        · exact hconcat
      exact (answers_calls (ih hfirst) ⟨f, calls, last, by simpa using hsecond⟩).2
  | rejected hbefore hpending hb ih =>
      obtain ⟨first, second, rfl, hfirst, hsecond⟩ := List.map_eq_append_iff.mp hcalls
      obtain ⟨third, fourth, rfl, rfl, hfourth⟩ := List.map_eq_append_iff.mp hsecond
      obtain ⟨rx, rfl, rfl⟩ := List.map_eq_singleton_iff.mp hfourth
      obtain ⟨f, ⟨rest, hrest⟩, hne⟩ := hpending
      obtain ⟨c, rest, rfl⟩ : ∃ c more, rest = c :: more := by
        cases rest with
        | nil => exact absurd (by simpa using hrest) hne
        | cons c more => exact ⟨c, more, rfl⟩
      rw [exec_append, exec_append]
      have hreading := (reading_exec (f := f) (reading_nil (ih hfirst)) hrest).1
      cases progress_onRxByte hreading rx.byte rx.nowMs rx.event with
      | reading hnext =>
          obtain ⟨f', hprefix, -⟩ := hnext.begins
          exact absurd hprefix (hb f')
      | rejected hstate => exact hstate
      | frame hstate => exact hstate

theorem tracked_exec {vision : DevVision} {received : List UInt8}
    (h : Tracked ⟨vision, received⟩) (calls : List Rx) :
    Tracked ⟨exec feed vision calls, received ++ calls.map Rx.byte⟩ := by
  induction calls generalizing vision received with
  | nil => simpa using h
  | cons rx calls ih =>
      have hone := ih (tracked_onRxByte h rx.byte rx.nowMs rx.event)
      simpa [step, feed, result] using hone

/-- A parser that meets the frame from its second byte on answers as the frame does if
and only if the rest hides a copy of it. -/
theorem answer_tail_iff {vision : DevVision} (h : vision.state = .sync1) {f : VisionFrame}
    (hf : Dispatchable f) {calls : List Rx} {last : Rx} (hlast : last.event.isSome)
    (hcalls : calls.map Rx.byte ++ [last.byte] = f.bytes.tail) :
    answer (exec feed vision calls) last = last.answer (f.event last.nowMs) ↔ HidesCopy f := by
  obtain ⟨e, he⟩ := event_of_dispatchable hf last.nowMs
  obtain ⟨record, hrecord⟩ := Option.isSome_iff_exists.mp hlast
  refine ⟨?_, ?_⟩
  · intro hanswer
    have htracked : Tracked ⟨vision, []⟩ := ⟨[], [], .nil, rfl, reading_nil h⟩
    obtain ⟨before, pending, hskipped, hreceived, hreading⟩ := tracked_exec htracked calls
    have hprogress := progress_onRxByte hreading last.byte last.nowMs last.event
    rw [he] at hanswer
    -- only a frame that ends here is answered
    cases hprogress with
    | reading _ hquiet =>
        rw [answer_eq hquiet] at hanswer
        simp [Rx.answer] at hanswer
    | rejected _ _ hquiet =>
        rw [answer_eq hquiet] at hanswer
        simp [Rx.answer] at hanswer
    | frame _ f' hframe hanswer' =>
        rw [answer_eq hanswer'] at hanswer
        have hevent : f'.event last.nowMs = f.event last.nowMs := by
          cases he' : f'.event last.nowMs with
          | none => simp [he', Rx.answer] at hanswer
          | some e' =>
              rw [he]
              simpa [he', Rx.answer, hrecord] using hanswer
        refine ⟨before, f', hskipped, ?_, VisionFrame.event_congr hevent⟩
        rw [← hcalls, ← hframe, ← List.append_assoc, ← hreceived]
        rfl
  · rintro ⟨before, f', hskipped, htail, hevent⟩
    rw [htail] at hcalls
    -- the last call is the last one of the copy
    have hbytes : f'.bytes = (f'.body ++ [f'.crc, 0x0D]) ++ [0x0A] := by simp [VisionFrame.bytes]
    rw [hbytes, ← List.append_assoc] at hcalls
    obtain ⟨hinit, hbyte⟩ := List.append_inj' hcalls rfl
    obtain ⟨first, second, rfl, hfirst, hsecond⟩ := List.map_eq_append_iff.mp hinit
    let t : Transmission := ⟨f', second, last, by rw [hsecond, hbyte, hbytes]⟩
    have hstate := state_exec_skipped hskipped h hfirst
    have hreading := (reading_exec (f := f') (reading_nil hstate) t.carries).1
    rw [exec_append, ← hevent]
    exact (sync1_feed hreading t.carries).2

/-- Noise before a frame, from SYNC1: the frame arrives if and only if the `AA` bytes
at the end of the noise are even in number, or the frame hides a copy of itself. -/
theorem arrives_iff {vision : DevVision} (h : vision.state = .sync1) {noise : List Rx}
    (hnoise : NoPair (noise.map Rx.byte)) (t : Transmission) (hf : Dispatchable t.frame)
    (hlast : t.last.event.isSome) :
    Arrives vision noise t ↔
      Even (trailing 0xAA (noise.map Rx.byte)) ∨ HidesCopy t.frame := by
  have hstate := state_exec_noise h hnoise
  rw [Arrives, exec_append]
  by_cases heven : Even (trailing 0xAA (noise.map Rx.byte))
  · rw [if_pos heven] at hstate
    have hreading := (reading_exec (f := t.frame) (reading_nil hstate) t.carries).1
    exact iff_of_true (sync1_feed hreading t.carries).2 (Or.inl heven)
  · rw [if_neg heven] at hstate
    rw [or_iff_right heven]
    -- the first byte of the frame only ends the noise
    obtain ⟨frame, before, last, carries⟩ := t
    obtain ⟨rx, before, rfl⟩ : ∃ rx more, before = rx :: more := by
      cases before with
      | nil => simp [VisionFrame.bytes, VisionFrame.body] at carries
      | cons rx more => exact ⟨rx, more, rfl⟩
    have hrx : rx.byte = 0xAA := by
      simp only [VisionFrame.bytes, VisionFrame.body, List.map_cons, List.cons_append,
        List.cons.injEq] at carries
      exact carries.1
    have hsync : (feed (exec feed vision noise) rx).state = .sync1 := by
      rw [state_feed_sync2 hstate, hrx]
      rfl
    rw [exec_cons]
    exact answer_tail_iff hsync hf hlast (by rw [← carries]; rfl)

/-- A command frame with one byte of payload. -/
def command : Transmission where
  frame := ⟨2, [5], by simp, by simp [devVisionMaxPayload]⟩
  before := [0xAA, 0x55, 1, 2, 5, 6, 0x0D].map fun b => ⟨b, 0, some .zero⟩
  last := ⟨0x0A, 0, some .zero⟩
  carries := by decide

/-- It arrives behind two `AA` bytes. -/
theorem arrives_behind_two :
    Arrives devVisionInit [⟨0xAA, 0, none⟩, ⟨0xAA, 0, none⟩] command :=
  (arrives_iff rfl (by decide) command (Or.inr (by decide)) rfl).mpr (Or.inl (by decide))

/-- Behind one it is lost. -/
theorem lost_behind_one :
    NoPair [0xAA] ∧ Dispatchable command.frame ∧
      ¬ Arrives devVisionInit [⟨0xAA, 0, none⟩] command := by
  refine ⟨by decide, Or.inr (by decide), ?_⟩
  rw [Arrives]
  decide

end NuedcFirmware.Modules.VisionNoise
