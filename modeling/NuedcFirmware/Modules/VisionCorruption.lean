import NuedcFirmware.Modules.VisionNoise

/-!
A frame with one byte of it wrong.

A wrong type or payload byte makes another frame of the same length, up to a
checksum that is not its own; a wrong byte behind the payload is met where it
stands. Either way the parser reads a frame as far as a byte behind its payload and
rejects that one, and what is left to be scanned then is the end of a frame, where
no `AA` is.
-/

namespace NuedcFirmware.Modules.VisionCorruption

open NuedcFirmware.Lib VisionParser VisionStream

/-- A frame up to a byte behind its payload, a wrong byte, and no `AA` behind it. -/
inductive Derailed (bytes : List UInt8) : Prop
  | intro (f : VisionFrame) (before more rest : List UInt8) (c b : UInt8)
      (hend : before ++ c :: more = [f.crc, 0x0D, 0x0A]) (hb : b ≠ c) (hrest : 0xAA ∉ rest)
      (hbytes : bytes = f.body ++ before ++ b :: rest)

/-- The calls are answered with nothing. -/
def Silent (vision : DevVision) (calls : List Rx) : Prop :=
  answers vision calls = calls.map fun rx => rx.answer none

theorem Silent.append {vision : DevVision} {calls calls' : List Rx} (h : Silent vision calls)
    (h' : Silent (exec feed vision calls) calls') : Silent vision (calls ++ calls') := by
  rw [Silent, answers_append, h, h', List.map_append]

/-! ### The target -/

/-- A call that reports nothing leaves the target alone. -/
theorem keepsTarget_feed {vision : DevVision} {rx : Rx} (h : (answer vision rx).returned = false) :
    KeepsTarget vision (feed vision rx) := by
  cases hstate : vision.state with
  | lf =>
      simp only [answer, feed, result, devVisionOnRxByte, hstate, dispatchFrame] at h ⊢
      split_ifs at h ⊢ <;> simp_all [KeepsTarget]
  | type => simp [feed, result, devVisionOnRxByte, hstate, KeepsTarget]
  | _ =>
      simp only [feed, result, devVisionOnRxByte, hstate]
      split_ifs <;> exact ⟨rfl, rfl⟩

theorem keepsTarget_exec {vision : DevVision} {calls : List Rx} (h : Silent vision calls) :
    KeepsTarget vision (exec feed vision calls) := by
  induction calls generalizing vision with
  | nil => exact ⟨rfl, rfl⟩
  | cons rx calls ih =>
      obtain ⟨hone, hmore⟩ := List.cons.inj h
      have hkept : KeepsTarget vision (feed vision rx) := by
        apply keepsTarget_feed
        rw [hone]
        rfl
      have hkept' := ih hmore
      exact ⟨hkept'.1.trans hkept.1, hkept'.2.trans hkept.2⟩

/-! ### Behind the wrong byte -/

/-- Where no frame begins the parser stays in SYNC1. -/
theorem silent_idle {vision : DevVision} (h : vision.state = .sync1) {calls : List Rx}
    (hcalls : 0xAA ∉ calls.map Rx.byte) :
    Silent vision calls ∧ (exec feed vision calls).state = .sync1 := by
  induction calls generalizing vision with
  | nil => exact ⟨rfl, h⟩
  | cons rx calls ih =>
      rw [List.map_cons, List.mem_cons, not_or] at hcalls
      have hstate : (feed vision rx).state = .sync1 := by
        rw [VisionNoise.state_feed_sync1 h, if_neg (Ne.symm hcalls.1)]
      have hanswer : answer vision rx = rx.answer none := by
        simp [answer, result, devVisionOnRxByte, h, Ne.symm hcalls.1, Rx.answer]
      obtain ⟨hsilent, hlast⟩ := ih hstate hcalls.2
      refine ⟨?_, hlast⟩
      rw [Silent, answers, hanswer, hsilent, List.map_cons]

/-- The wrong byte fits no frame. -/
theorem not_prefix_of_ne {f : VisionFrame} {before more : List UInt8} {c b : UInt8}
    (hend : before ++ c :: more = [f.crc, 0x0D, 0x0A]) (hb : b ≠ c) (f' : VisionFrame) :
    ¬ f.body ++ before ++ [b] <+: f'.bytes := by
  intro hprefix
  rw [List.append_assoc] at hprefix
  have hnext := next_of_body_prefix hprefix
  rw [← hend, List.prefix_append_right_inj, List.cons_prefix_cons] at hnext
  exact hb hnext.1

theorem silent_derailed {vision : DevVision} (h : vision.state = .sync1) {calls : List Rx}
    (hcalls : Derailed (calls.map Rx.byte)) :
    Silent vision calls ∧ (exec feed vision calls).state = .sync1 := by
  obtain ⟨f, before, more, rest, c, b, hend, hb, hrest, hbytes⟩ := hcalls
  obtain ⟨first, second, rfl, hfirst, hsecond⟩ := List.map_eq_append_iff.mp hbytes
  obtain ⟨rx, behind, rfl, rfl, rfl⟩ := List.map_eq_cons_iff.mp hsecond
  -- up to the wrong byte a frame is read
  have hf : [] ++ first.map Rx.byte ++ c :: more = f.bytes := by
    rw [List.nil_append, hfirst, List.append_assoc, hend, VisionFrame.bytes]
  obtain ⟨hreading, hsilent⟩ := reading_exec (reading_nil h) hf
  have hno (f' : VisionFrame) : ¬ [] ++ first.map Rx.byte ++ [rx.byte] <+: f'.bytes := by
    rw [List.nil_append, hfirst]
    exact not_prefix_of_ne hend hb f'
  -- it is rejected there
  have hwrong : answer (exec feed vision first) rx = rx.answer none ∧
      (feed (exec feed vision first) rx).state = .sync1 := by
    cases progress_onRxByte hreading rx.byte rx.nowMs rx.event with
    | reading hnext =>
        obtain ⟨f', hprefix, -⟩ := hnext.begins
        exact absurd hprefix (hno f')
    | rejected hstate _ hquiet => exact ⟨answer_eq hquiet, hstate⟩
    | frame _ f' hframe => exact absurd (hframe ▸ List.prefix_refl _) (hno f')
  obtain ⟨hidle, hlast⟩ := silent_idle hwrong.2 hrest
  have hbehind : Silent (exec feed vision first) (rx :: behind) := by
    rw [Silent, answers, hwrong.1, hidle, List.map_cons]
  rw [exec_append, exec_cons]
  exact ⟨Silent.append hsilent hbehind, hlast⟩

/-! ### The altered frame -/

/-- A wrong type or payload byte makes another frame with another checksum. -/
theorem exists_body_eq_set {f : VisionFrame} {i : ℕ} (hi : 3 ≤ i) (hlt : i < f.body.length)
    {b : UInt8} (hb : b ≠ f.body[i]) :
    ∃ f' : VisionFrame, f'.body = f.body.set i b ∧ f.crc ≠ f'.crc := by
  obtain ⟨f', hbody⟩ : ∃ f' : VisionFrame, f'.body = f.body.set i b := by
    obtain rfl | ⟨j, rfl⟩ : i = 3 ∨ ∃ j, i = j + 4 := by
      rcases Nat.lt_or_eq_of_le hi with hlt | rfl
      · exact Or.inr ⟨i - 4, by omega⟩
      · exact Or.inl rfl
    · exact ⟨{ f with frameType := b }, rfl⟩
    · have hlength : (f.payload.set j b).length = f.payload.length := List.length_set ..
      refine ⟨⟨f.frameType, f.payload.set j b, hlength ▸ f.pos, hlength ▸ f.le⟩, ?_⟩
      simp [VisionFrame.body, VisionFrame.len]
  refine ⟨f', hbody, ?_⟩
  -- the checksum is that of what follows the sync bytes
  have hcrc (f : VisionFrame) : f.crc = xorSum (f.body.drop 2) := rfl
  obtain ⟨j, rfl⟩ : ∃ j, i = j + 2 := ⟨i - 2, by omega⟩
  rw [hcrc, hcrc, hbody]
  exact (xorSum_set_ne (Nat.lt_of_add_lt_add_right hlt) hb).symm

/-- Behind its first three bytes, every byte of a frame counts. -/
theorem derailed_set {f : VisionFrame} {i : ℕ} (hi : 3 ≤ i) (hlt : i < f.bytes.length)
    {b : UInt8} (hb : b ≠ f.bytes[i]) : Derailed (f.bytes.set i b) := by
  by_cases hbody : i < f.body.length
  · have hget : f.bytes[i] = f.body[i] := List.getElem_append_left hbody
    rw [hget] at hb
    obtain ⟨f', hset, hcrc⟩ := exists_body_eq_set hi hbody hb
    refine .intro f' [] [0x0D, 0x0A] [0x0D, 0x0A] f'.crc f.crc rfl hcrc (by decide) ?_
    rw [VisionFrame.bytes, List.set_append_left _ _ hbody, hset, List.append_nil]
  · obtain ⟨j, rfl⟩ : ∃ j, i = f.body.length + j := ⟨i - f.body.length, by omega⟩
    simp only [VisionFrame.bytes, List.getElem_append_right (Nat.le_add_right ..),
      Nat.add_sub_cancel_left] at hb
    rw [VisionFrame.bytes, List.length_append, List.length_cons, List.length_cons,
      List.length_singleton] at hlt
    rw [VisionFrame.bytes, List.set_append_right _ _ (Nat.le_add_right ..)]
    rw [Nat.add_sub_cancel_left]
    obtain rfl | rfl | rfl : j = 0 ∨ j = 1 ∨ j = 2 := by omega
    · exact .intro f [] [0x0D, 0x0A] [0x0D, 0x0A] f.crc b rfl hb (by decide) (by simp)
    · exact .intro f [f.crc] [0x0A] [0x0A] 0x0D b rfl hb (by decide) (by simp)
    · exact .intro f [f.crc, 0x0D] [] [] 0x0A b rfl hb (by decide) (by simp)

/-- A frame with one byte behind its length wrong is dropped: from SYNC1 it is answered
with nothing, the target and its flag stay as they are, the parser is in SYNC1 again,
and a frame that says something is answered when it comes next. -/
theorem corrupted_dropped {vision : DevVision} (h : vision.state = .sync1) {f : VisionFrame}
    {i : ℕ} (hi : 3 ≤ i) (hlt : i < f.bytes.length) {b : UInt8} (hb : b ≠ f.bytes[i])
    {calls : List Rx} (hcalls : calls.map Rx.byte = f.bytes.set i b) :
    (answers vision calls = calls.map fun rx => rx.answer none) ∧
      KeepsTarget vision (exec feed vision calls) ∧
      (exec feed vision calls).state = .sync1 ∧
      ∀ t : Transmission, Dispatchable t.frame →
        t.event.isSome ∧ answers (exec feed vision calls) t.calls = t.answers := by
  obtain ⟨hsilent, hstate⟩ := silent_derailed h (hcalls ▸ derailed_set hi hlt hb)
  refine ⟨hsilent, keepsTarget_exec hsilent, hstate, fun t ht => ⟨?_, ?_⟩⟩
  · rw [Option.isSome_iff_exists]
    exact event_of_dispatchable ht t.last.nowMs
  · exact (answers_calls hstate t).1

/-- The payload byte of a command turned into a sync byte, and the command again. -/
theorem corrupted_dropped_command :
    answers (exec feed devVisionInit
      ([0xAA, 0x55, 1, 2, 0xAA, 6, 0x0D, 0x0A].map fun b => ⟨b, 3, some .zero⟩))
        VisionNoise.command.calls = VisionNoise.command.answers :=
  ((corrupted_dropped rfl (f := VisionNoise.command.frame) (i := 4) (b := 0xAA) (by decide)
    (by decide) (by decide) (by decide)).2.2.2 VisionNoise.command (Or.inr (by decide))).2

end NuedcFirmware.Modules.VisionCorruption
