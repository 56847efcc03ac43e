import NuedcFirmware.Lib.Run
import NuedcFirmware.Modules.Vision

/-!
What the vision parser accepts.

A parser reads the beginning of a frame as long as the bytes fit one. It is back
in SYNC1 with the last byte of a complete frame or with the first byte that fits
none; a string that takes it from SYNC1 to SYNC1 is `Skipped`. `Reading` says how
far into a frame a parser is, in terms of its record, and `progress_onRxByte` what
one byte does to that; only the last byte of a complete frame makes the parser
answer.
-/

namespace NuedcFirmware.Modules.VisionParser

open NuedcFirmware.Lib

/-- The beginning of a frame, short of the whole. -/
def Begins (bytes : List UInt8) : Prop := ∃ f : VisionFrame, bytes <+: f.bytes ∧ bytes ≠ f.bytes

/-- Complete frames, and beginnings of frames each with the first byte that does
not fit. -/
inductive Skipped : List UInt8 → Prop
  | nil : Skipped []
  | frame {before : List UInt8} (h : Skipped before) (f : VisionFrame) :
      Skipped (before ++ f.bytes)
  | rejected {before pending : List UInt8} {b : UInt8} (h : Skipped before)
      (hpending : Begins pending) (hb : ∀ f : VisionFrame, ¬ pending ++ [b] <+: f.bytes) :
      Skipped (before ++ (pending ++ [b]))

/-- The payload bytes stored so far. -/
def stored (vision : DevVision) : List UInt8 :=
  (List.range vision.index.toNat).map vision.payload

/-- The frame as far as it is stored. -/
def body (vision : DevVision) : List UInt8 :=
  0xAA :: 0x55 :: vision.len :: vision.frameType :: stored vision

/-- The length is within its limits, and the checksum is that of the bytes stored. -/
structure InBody (vision : DevVision) : Prop where
  pos : 1 ≤ vision.len.toNat
  le : vision.len.toNat ≤ devVisionMaxPayload
  crc : vision.crcCalc = xorSum (vision.len :: vision.frameType :: stored vision)

/-- The payload is complete. -/
structure Complete (vision : DevVision) : Prop extends InBody vision where
  full : vision.index = vision.len

/-- What the parser has read since it left SYNC1. -/
def Reading (vision : DevVision) (pending : List UInt8) : Prop :=
  match vision.state with
  | .sync1 => pending = []
  | .sync2 => pending = [0xAA]
  | .len => pending = [0xAA, 0x55]
  | .type =>
      1 ≤ vision.len.toNat ∧ vision.len.toNat ≤ devVisionMaxPayload ∧
        vision.crcCalc = vision.len ∧ pending = [0xAA, 0x55, vision.len]
  | .data => InBody vision ∧ vision.index < vision.len ∧ pending = body vision
  | .crc => Complete vision ∧ pending = body vision
  | .cr => Complete vision ∧ pending = body vision ++ [vision.crcCalc]
  | .lf => Complete vision ∧ pending = body vision ++ [vision.crcCalc, 0x0D]

/-- A call answers with an event, or with none and leaves the target alone. -/
def Answers (vision : DevVision) (event : Option DevVisionEvent) (r : RxResult) :
    Option DevVisionEvent → Prop
  | none =>
      r.returned = false ∧ r.event = clearEvent event ∧ r.vision.target = vision.target ∧
        r.vision.freshTarget = vision.freshTarget
  | some e =>
      r.returned = true ∧ r.event = event.map (fun _ => e) ∧
        if e.type = .target then r.vision.target = e.target ∧ r.vision.freshTarget = true
        else r.vision.target = vision.target ∧ r.vision.freshTarget = vision.freshTarget

/-! ### The frame in the record -/

@[simp] theorem length_stored (vision : DevVision) :
    (stored vision).length = vision.index.toNat := by
  simp [stored]

theorem stored_getD (vision : DevVision) {i : ℕ} (h : i < vision.index.toNat) :
    (stored vision).getD i 0 = vision.payload i := by
  simp [stored, List.getD_eq_getElem?_getD, h]

/-- Storing a byte appends it. -/
theorem stored_store {vision : DevVision} (h : vision.index < vision.len) (byte : UInt8) :
    stored (vision.store byte) = stored vision ++ [byte] ∧
      (vision.store byte).index.toNat = vision.index.toNat + 1 := by
  have hlt := UInt8.lt_iff_toNat_lt.mp h
  have hlen := vision.len.toNat_lt
  have hindex : (vision.store byte).index.toNat = vision.index.toNat + 1 := by
    rw [DevVision.store, UInt8.toNat_add, UInt8.toNat_one, Nat.mod_eq_of_lt (by omega)]
  refine ⟨?_, hindex⟩
  rw [stored, hindex, List.range_succ, List.map_append, stored]
  congr 1
  · apply List.map_congr_left
    intro i hi
    have hne : i ≠ vision.index.toNat := (List.mem_range.mp hi).ne
    exact Function.update_of_ne hne ..
  · simp [DevVision.store]

theorem InBody.store {vision : DevVision} (h : InBody vision) (hlt : vision.index < vision.len)
    (byte : UInt8) : InBody (vision.store byte) where
  pos := h.pos
  le := h.le
  crc := by
    rw [(stored_store hlt byte).1, ← List.cons_append, ← List.cons_append]
    exact (congrArg (· ^^^ byte) h.crc).trans (xorSum_append_singleton ..).symm

namespace Complete

variable {vision : DevVision} (h : Complete vision)
include h

theorem length : (stored vision).length = vision.len.toNat := by
  rw [length_stored, h.full]

/-- The frame that the record holds. -/
def frame : VisionFrame where
  frameType := vision.frameType
  payload := stored vision
  pos := h.length ▸ h.pos
  le := h.length ▸ h.le

theorem len_frame : h.frame.len = vision.len := by
  rw [VisionFrame.len, frame, h.length, UInt8.ofNat_toNat]

theorem body_frame : h.frame.body = body vision := by
  rw [VisionFrame.body, h.len_frame]
  rfl

theorem crc_frame : h.frame.crc = vision.crcCalc := by
  rw [VisionFrame.crc, h.len_frame, h.crc]
  rfl

theorem byte_frame {i : ℕ} (hi : i < vision.len.toNat) : h.frame.byte i = vision.payload i :=
  stored_getD vision (h.full ▸ hi)

theorem withState (state : DevVisionParseState) : Complete { vision with state } :=
  ⟨⟨h.pos, h.le, h.crc⟩, h.full⟩

/-- What `dispatch_frame` makes of the record is what the frame says. -/
theorem answers_dispatchFrame (nowMs : UInt32) (event : Option DevVisionEvent) :
    Answers vision event (dispatchFrame { vision with state := .sync1 } nowMs (clearEvent event))
      (h.frame.event nowMs) := by
  have htype : h.frame.frameType = vision.frameType := rfl
  have hseven : 7 ≤ h.frame.payload.length ↔ vision.len ≥ 7 := by
    rw [show h.frame.payload.length = vision.len.toNat from h.length]
    exact (UInt8.le_iff_toNat_le (a := 7)).symm
  have hone : vision.len ≥ 1 := UInt8.le_iff_toNat_le.mpr h.pos
  by_cases htarget : vision.frameType = 1 ∧ vision.len ≥ 7
  · -- seven payload bytes are there to be read
    have hbyte (i : ℕ) (hi : i < 7) : h.frame.byte i = vision.payload i :=
      h.byte_frame (hi.trans_le (UInt8.le_iff_toNat_le.mp htarget.2))
    rw [VisionFrame.event, if_pos ⟨htarget.1, hseven.mpr htarget.2⟩, dispatchFrame, if_pos htarget]
    simp [Answers, clearEvent, DevVision.payloadTarget, or_shiftLeft_eq_word16, hbyte, int16,
      htype, Function.comp_def, DevVisionEvent.zero]
  · rw [VisionFrame.event, if_neg (by rwa [htype, hseven]), dispatchFrame, if_neg htarget]
    by_cases hcommand : vision.frameType = 2
    · have hbyte : h.frame.byte 0 = vision.payload 0 := h.byte_frame h.pos
      rw [if_pos ⟨hcommand, hone⟩, if_pos (htype.trans hcommand)]
      simp [Answers, clearEvent, hbyte, htype, Function.comp_def, DevVisionEvent.zero]
    · rw [if_neg fun h => hcommand h.1, if_neg (htype ▸ hcommand)]
      simp [Answers, clearEvent, Function.comp_def]

end Complete

/-! ### One byte -/

/-- What a byte does to a parser, `pending` being what it has read since SYNC1, the
byte included. -/
inductive Progress (vision : DevVision) (pending : List UInt8) (nowMs : UInt32)
    (event : Option DevVisionEvent) (r : RxResult) : Prop
  | reading (h : Reading r.vision pending) (hquiet : Answers vision event r none)
  | rejected (hstate : r.vision.state = .sync1) (h : ∀ f : VisionFrame, ¬ pending <+: f.bytes)
      (hquiet : Answers vision event r none)
  | frame (hstate : r.vision.state = .sync1) (f : VisionFrame) (h : pending = f.bytes)
      (hanswer : Answers vision event r (f.event nowMs))

theorem answers_goOn (vision vision' : DevVision) (event : Option DevVisionEvent)
    (htarget : vision'.target = vision.target)
    (hfresh : vision'.freshTarget = vision.freshTarget) :
    Answers vision event ⟨false, clearEvent event, vision'⟩ none :=
  ⟨rfl, rfl, htarget, hfresh⟩

/-- The payload goes on, or is complete. -/
theorem reading_store {vision : DevVision} (h : InBody vision) (hlt : vision.index < vision.len)
    (byte : UInt8) :
    (vision.store byte).index < (vision.store byte).len ∧ InBody (vision.store byte) ∨
      ¬ (vision.store byte).index < (vision.store byte).len ∧ Complete (vision.store byte) := by
  have hindex := (stored_store hlt byte).2
  have hlt' := UInt8.lt_iff_toNat_lt.mp hlt
  by_cases hmore : (vision.store byte).index < (vision.store byte).len
  · exact Or.inl ⟨hmore, h.store hlt byte⟩
  · refine Or.inr ⟨hmore, h.store hlt byte, ?_⟩
    rw [UInt8.lt_iff_toNat_lt, hindex] at hmore
    have hlen : (vision.store byte).len = vision.len := rfl
    rw [hlen] at hmore ⊢
    apply UInt8.toNat_inj.mp
    omega

theorem body_store {vision : DevVision} (hlt : vision.index < vision.len) (byte : UInt8) :
    body (vision.store byte) = body vision ++ [byte] := by
  rw [body, (stored_store hlt byte).1]
  rfl

/-- Behind a body comes the end of its own frame. -/
theorem next_of_body_prefix {f f' : VisionFrame} {s : List UInt8} (h : f.body ++ s <+: f'.bytes) :
    s <+: [f.crc, 0x0D, 0x0A] := by
  obtain ⟨rest, hrest⟩ := h
  rw [VisionFrame.bytes, List.append_assoc] at hrest
  obtain ⟨rfl, hend⟩ := VisionFrame.body_append_inj hrest
  exact ⟨rest, hend⟩

/-- What every byte does to a parser that has read `pending` since SYNC1. -/
def Progresses (vision : DevVision) (pending : List UInt8) : Prop :=
  ∀ byte nowMs event,
    Progress vision (pending ++ [byte]) nowMs event (devVisionOnRxByte vision byte nowMs event)

section States

variable {vision : DevVision} {pending : List UInt8} (h : Reading vision pending)
include h

theorem progresses_sync1 (hstate : vision.state = .sync1) : Progresses vision pending := by
  intro byte nowMs event
  simp only [Reading, hstate] at h
  simp only [devVisionOnRxByte, hstate, h]
  split_ifs with hbyte
  · exact .reading (by simp [Reading, hbyte]) (answers_goOn _ _ _ rfl rfl)
  · refine .rejected hstate (fun f hf => hbyte ?_) (answers_goOn _ _ _ rfl rfl)
    simpa [VisionFrame.bytes, VisionFrame.body] using hf

theorem progresses_sync2 (hstate : vision.state = .sync2) : Progresses vision pending := by
  intro byte nowMs event
  simp only [Reading, hstate] at h
  simp only [devVisionOnRxByte, hstate, h]
  split_ifs with hbyte
  · exact .reading (by simp [Reading, hbyte]) (answers_goOn _ _ _ rfl rfl)
  · refine .rejected rfl (fun f hf => hbyte ?_) (answers_goOn _ _ _ rfl rfl)
    simpa [VisionFrame.bytes, VisionFrame.body] using hf

/-- A length out of limits is that of no frame. -/
theorem progresses_len (hstate : vision.state = .len) : Progresses vision pending := by
  intro byte nowMs event
  simp only [Reading, hstate] at h
  simp only [devVisionOnRxByte, hstate, h]
  split_ifs with hbyte
  · refine .rejected rfl (fun f hf => ?_) (answers_goOn _ _ _ rfl rfl)
    have hlen : byte = f.len := by
      simpa [VisionFrame.bytes, VisionFrame.body] using hf
    have hlength := f.toNat_len
    rw [← hlen] at hlength
    rcases hbyte with hzero | hlarge
    · rw [hzero, UInt8.toNat_zero] at hlength
      exact absurd f.pos (by omega)
    · exact absurd f.le (by omega)
  · have hpos : byte.toNat ≠ 0 := fun hzero => hbyte (Or.inl (UInt8.toNat_inj.mp hzero))
    refine .reading ?_ (answers_goOn _ _ _ rfl rfl)
    exact ⟨Nat.one_le_iff_ne_zero.mpr hpos, Nat.not_lt.mp fun hgt => hbyte (Or.inr hgt),
      rfl, rfl⟩

theorem progresses_type (hstate : vision.state = .type) : Progresses vision pending := by
  intro byte nowMs event
  simp only [Reading, hstate] at h
  obtain ⟨hpos, hle, hcrc, rfl⟩ := h
  simp only [devVisionOnRxByte, hstate]
  refine .reading ⟨⟨hpos, hle, ?_⟩, ?_, ?_⟩ (answers_goOn _ _ _ rfl rfl)
  · simp [stored, xorSum, hcrc]
  · exact UInt8.lt_iff_toNat_lt.mpr hpos
  · simp [body, stored]

theorem progresses_data (hstate : vision.state = .data) : Progresses vision pending := by
  intro byte nowMs event
  simp only [Reading, hstate] at h
  obtain ⟨hbody, hlt, rfl⟩ := h
  simp only [devVisionOnRxByte, hstate, if_pos hlt]
  rcases reading_store hbody hlt byte with ⟨hmore, hbody'⟩ | ⟨hdone, hcomplete⟩
  · rw [if_neg (UInt8.not_le.mpr hmore)]
    refine .reading ?_ (answers_goOn _ _ _ rfl rfl)
    have hdata : (vision.store byte).state = .data := hstate
    simp only [Reading, hdata]
    exact ⟨hbody', hmore, (body_store hlt byte).symm⟩
  · rw [if_pos (UInt8.not_lt.mp hdone)]
    refine .reading ⟨hcomplete.withState .crc, ?_⟩ (answers_goOn _ _ _ rfl rfl)
    exact (body_store hlt byte).symm

theorem progresses_crc (hstate : vision.state = .crc) : Progresses vision pending := by
  intro byte nowMs event
  simp only [Reading, hstate] at h
  obtain ⟨hcomplete, rfl⟩ := h
  simp only [devVisionOnRxByte, hstate]
  split_ifs with hbyte
  · refine .reading ⟨hcomplete.withState .cr, ?_⟩ (answers_goOn _ _ _ rfl rfl)
    rw [hbyte]
    rfl
  · refine .rejected rfl (fun f hf => hbyte ?_) (answers_goOn _ _ _ rfl rfl)
    rw [← hcomplete.body_frame] at hf
    rw [← hcomplete.crc_frame]
    simpa using next_of_body_prefix hf

theorem progresses_cr (hstate : vision.state = .cr) : Progresses vision pending := by
  intro byte nowMs event
  simp only [Reading, hstate] at h
  obtain ⟨hcomplete, rfl⟩ := h
  simp only [devVisionOnRxByte, hstate, List.append_assoc, List.singleton_append]
  split_ifs with hbyte
  · refine .reading ⟨hcomplete.withState .lf, ?_⟩ (answers_goOn _ _ _ rfl rfl)
    rw [hbyte]
    rfl
  · refine .rejected rfl (fun f hf => hbyte ?_) (answers_goOn _ _ _ rfl rfl)
    rw [← hcomplete.body_frame] at hf
    have hnext := next_of_body_prefix hf
    simp only [List.cons_prefix_cons] at hnext
    exact hnext.2.1

/-- The last byte of a frame: the record is dispatched. -/
theorem progresses_lf (hstate : vision.state = .lf) : Progresses vision pending := by
  intro byte nowMs event
  simp only [Reading, hstate] at h
  obtain ⟨hcomplete, rfl⟩ := h
  have hpending : body vision ++ [vision.crcCalc, 0x0D] ++ [byte] =
      hcomplete.frame.body ++ [hcomplete.frame.crc, 0x0D, byte] := by
    rw [hcomplete.body_frame, hcomplete.crc_frame, List.append_assoc]
    rfl
  simp only [devVisionOnRxByte, hstate, hpending]
  split_ifs with hbyte
  · refine .frame ?_ hcomplete.frame ?_ (hcomplete.answers_dispatchFrame nowMs event)
    · rw [dispatchFrame]
      dsimp only
      split_ifs <;> rfl
    · rw [hbyte]
      rfl
  · refine .rejected rfl (fun f hf => hbyte ?_) (answers_goOn _ _ _ rfl rfl)
    simpa using next_of_body_prefix hf

theorem progress_onRxByte (byte : UInt8) (nowMs : UInt32) (event : Option DevVisionEvent) :
    Progress vision (pending ++ [byte]) nowMs event (devVisionOnRxByte vision byte nowMs event) := by
  have hprogresses : Progresses vision pending := by
    cases hstate : vision.state with
    | sync1 => exact progresses_sync1 h hstate
    | sync2 => exact progresses_sync2 h hstate
    | len => exact progresses_len h hstate
    | type => exact progresses_type h hstate
    | data => exact progresses_data h hstate
    | crc => exact progresses_crc h hstate
    | cr => exact progresses_cr h hstate
    | lf => exact progresses_lf h hstate
  exact hprogresses byte nowMs event

end States

/-! ### Runs -/

/-- A parser and the bytes an observer has seen it receive since its last reset. -/
structure Observed where
  vision : DevVision
  received : List UInt8

inductive Call
  | onRxByte (byte : UInt8) (nowMs : UInt32) (event : Option DevVisionEvent)
  | resetParser
  | hasFreshTarget

def step (o : Observed) : Call → Observed
  | .onRxByte byte nowMs event =>
      { vision := (devVisionOnRxByte o.vision byte nowMs event).vision
        received := o.received ++ [byte] }
  | .resetParser => { vision := devVisionResetParser o.vision, received := [] }
  | .hasFreshTarget => { o with vision := (devVisionHasFreshTarget o.vision).2 }

/-- After `Dev_Vision_Init`. -/
def start : Observed := ⟨devVisionInit, []⟩

/-- What was received is a string of segments and what the parser is reading. -/
def Tracked (o : Observed) : Prop :=
  ∃ before pending, Skipped before ∧ o.received = before ++ pending ∧ Reading o.vision pending

theorem tracked_start : Tracked start := ⟨[], [], .nil, rfl, rfl⟩

theorem reading_nil {vision : DevVision} (h : vision.state = .sync1) : Reading vision [] := by
  simp [Reading, h]

/-- A frame as short as a frame can be. -/
def shortFrame : VisionFrame := ⟨0, [0], by simp, by simp [devVisionMaxPayload]⟩

/-- A beginning is told from a frame that goes on behind it. -/
theorem begins_of_append {pending rest : List UInt8} {b : UInt8} (f : VisionFrame)
    (hf : pending ++ b :: rest = f.bytes) : Begins pending := by
  refine ⟨f, ⟨b :: rest, hf⟩, fun heq => ?_⟩
  rw [heq] at hf
  exact List.cons_ne_nil b rest (List.append_right_eq_self.mp hf)

/-- A payload that is not full can be filled. -/
theorem begins_body {vision : DevVision} (h : InBody vision) (hlt : vision.index < vision.len) :
    Begins (body vision) := by
  have hlt' := UInt8.lt_iff_toNat_lt.mp hlt
  let missing := List.replicate (vision.len.toNat - vision.index.toNat - 1) (0 : UInt8)
  have hlength : (stored vision ++ 0 :: missing).length = vision.len.toNat := by
    simp only [missing, List.length_append, List.length_cons, List.length_replicate,
      length_stored]
    omega
  let f : VisionFrame :=
    ⟨vision.frameType, stored vision ++ 0 :: missing, hlength ▸ h.pos, hlength ▸ h.le⟩
  have hlen : f.len = vision.len := by
    rw [VisionFrame.len, hlength, UInt8.ofNat_toNat]
  have hf : body vision ++ 0 :: (missing ++ [f.crc, 0x0D, 0x0A]) = f.bytes := by
    rw [VisionFrame.bytes, VisionFrame.body, hlen]
    simp [body, f]
  exact begins_of_append f hf

/-- What is being read is the beginning of a frame: of any frame that goes on as the
record says. -/
theorem Reading.begins {vision : DevVision} {pending : List UInt8} (h : Reading vision pending) :
    Begins pending := by
  cases hstate : vision.state with
  | sync1 | sync2 | len =>
      simp only [Reading, hstate] at h
      exact begins_of_append shortFrame (by rw [h]; rfl)
  | type =>
      simp only [Reading, hstate] at h
      obtain ⟨hpos, hle, -, hpending⟩ := h
      let f : VisionFrame := ⟨0, List.replicate vision.len.toNat 0, by simpa, by simpa⟩
      have hlen : f.len = vision.len := by simp [f, VisionFrame.len]
      have hf : pending ++ 0 :: (f.payload ++ [f.crc, 0x0D, 0x0A]) = f.bytes := by
        rw [hpending, VisionFrame.bytes, VisionFrame.body, hlen]
        rfl
      exact begins_of_append f hf
  | data =>
      simp only [Reading, hstate] at h
      obtain ⟨hbody, hlt, rfl⟩ := h
      exact begins_body hbody hlt
  | crc =>
      simp only [Reading, hstate] at h
      obtain ⟨hcomplete, hpending⟩ := h
      rw [← hcomplete.body_frame] at hpending
      exact begins_of_append hcomplete.frame (by rw [hpending]; rfl)
  | cr | lf =>
      simp only [Reading, hstate] at h
      obtain ⟨hcomplete, hpending⟩ := h
      rw [← hcomplete.body_frame, ← hcomplete.crc_frame] at hpending
      exact begins_of_append hcomplete.frame (by rw [hpending, List.append_assoc]; rfl)

/-- How far the parser is does not depend on the flag of its target. -/
theorem Reading.withFreshTarget {vision : DevVision} {pending : List UInt8}
    (h : Reading vision pending) (fresh : Bool) :
    Reading { vision with freshTarget := fresh } pending := by
  cases hstate : vision.state with
  | data =>
      simp only [Reading, hstate] at h ⊢
      exact ⟨⟨h.1.pos, h.1.le, h.1.crc⟩, h.2⟩
  | crc | cr | lf =>
      simp only [Reading, hstate] at h ⊢
      exact ⟨⟨⟨h.1.pos, h.1.le, h.1.crc⟩, h.1.full⟩, h.2⟩
  | _ => simpa only [Reading, hstate] using h

theorem tracked_onRxByte {o : Observed} (h : Tracked o) (byte : UInt8) (nowMs : UInt32)
    (event : Option DevVisionEvent) : Tracked (step o (.onRxByte byte nowMs event)) := by
  obtain ⟨before, pending, hskipped, hreceived, hreading⟩ := h
  have hbytes : o.received ++ [byte] = before ++ (pending ++ [byte]) := by
    rw [hreceived, List.append_assoc]
  cases progress_onRxByte hreading byte nowMs event with
  | reading hnext => exact ⟨before, _, hskipped, hbytes, hnext⟩
  | rejected hstate hb =>
      have hskipped' := hskipped.rejected hreading.begins hb
      exact ⟨_, [], hskipped', by rw [List.append_nil]; exact hbytes, reading_nil hstate⟩
  | frame hstate f hframe =>
      rw [hframe] at hbytes
      exact ⟨_, [], hskipped.frame f, by rw [List.append_nil]; exact hbytes, reading_nil hstate⟩

theorem tracked_step (o : Observed) (call : Call) (h : Tracked o) : Tracked (step o call) := by
  cases call with
  | onRxByte byte nowMs event => exact tracked_onRxByte h byte nowMs event
  | resetParser => exact ⟨[], [], .nil, rfl, rfl⟩
  | hasFreshTarget =>
      obtain ⟨before, pending, hskipped, hreceived, hreading⟩ := h
      refine ⟨before, pending, hskipped, hreceived, ?_⟩
      simp only [step, devVisionHasFreshTarget]
      split_ifs
      · exact hreading.withFreshTarget false
      · exact hreading

/-- A target of at least seven bytes, or a command of at least one. -/
def Dispatchable (f : VisionFrame) : Prop :=
  (f.frameType = 1 ∧ 7 ≤ f.payload.length) ∨ (f.frameType = 2 ∧ 1 ≤ f.payload.length)

/-- Neither the target nor its flag is touched. -/
def KeepsTarget (vision vision' : DevVision) : Prop :=
  vision'.target = vision.target ∧ vision'.freshTarget = vision.freshTarget

/-- What a call may do. A byte that makes the parser answer is the last one of a
well-formed frame, the event is that of the frame, and so is the target if it
reports one; every other call leaves the target alone and its flag at most
cleared; and a byte is stored within the payload or not at all. -/
def WellBehaved (o : Observed) : Call → Prop
  | .onRxByte byte nowMs event =>
      let r := devVisionOnRxByte o.vision byte nowMs event
      (r.returned = true → ∃ f : VisionFrame, ∃ e, f.bytes <:+ o.received ++ [byte] ∧
          Dispatchable f ∧ f.event nowMs = some e ∧ r.event = event.map (fun _ => e) ∧
          if e.type = .target then r.vision.target = e.target ∧ r.vision.freshTarget = true
          else KeepsTarget o.vision r.vision) ∧
        (r.returned = false → KeepsTarget o.vision r.vision) ∧
        (∀ i, r.vision.payload i =
          if o.vision.storeIndex = some i then byte else o.vision.payload i) ∧
        ∀ i, o.vision.storeIndex = some i → i < devVisionMaxPayload
  | .resetParser => KeepsTarget o.vision (devVisionResetParser o.vision)
  | .hasFreshTarget =>
      let vision := (devVisionHasFreshTarget o.vision).2
      vision.target = o.vision.target ∧ (vision.freshTarget = true → o.vision.freshTarget = true)

theorem dispatchable_of_event {f : VisionFrame} {nowMs : UInt32} {e : DevVisionEvent}
    (h : f.event nowMs = some e) : Dispatchable f := by
  rw [VisionFrame.event] at h
  split_ifs at h with htarget hcommand
  · exact Or.inl htarget
  · exact Or.inr ⟨hcommand, f.pos⟩

theorem event_of_dispatchable {f : VisionFrame} (h : Dispatchable f) (nowMs : UInt32) :
    ∃ e, f.event nowMs = some e := by
  rw [VisionFrame.event]
  rcases h with htarget | ⟨hcommand, -⟩
  · exact ⟨_, if_pos htarget⟩
  · simp [hcommand]

/-- The store that `storeIndex` foretells is the only one. -/
theorem payload_onRxByte (vision : DevVision) (byte : UInt8) (nowMs : UInt32)
    (event : Option DevVisionEvent) (i : ℕ) :
    (devVisionOnRxByte vision byte nowMs event).vision.payload i =
      if vision.storeIndex = some i then byte else vision.payload i := by
  cases hstate : vision.state with
  | data =>
      simp only [devVisionOnRxByte, DevVision.storeIndex, hstate]
      split_ifs <;> simp_all [DevVision.store, Function.update, eq_comm]
  | lf =>
      simp only [devVisionOnRxByte, DevVision.storeIndex, hstate, dispatchFrame]
      split_ifs <;> simp_all
  | _ =>
      simp only [devVisionOnRxByte, DevVision.storeIndex, hstate]
      split_ifs <;> simp_all

theorem storeIndex_lt {vision : DevVision} {pending : List UInt8} (h : Reading vision pending)
    {i : ℕ} (hi : vision.storeIndex = some i) : i < devVisionMaxPayload := by
  cases hstate : vision.state with
  | data =>
      simp only [Reading, hstate] at h
      simp only [DevVision.storeIndex, hstate, if_pos h.2.1, Option.some.injEq] at hi
      rw [← hi]
      exact (UInt8.lt_iff_toNat_lt.mp h.2.1).trans_le h.1.le
  | _ => simp [DevVision.storeIndex, hstate] at hi

theorem wellBehaved_of_tracked (o : Observed) (call : Call) (h : Tracked o) :
    WellBehaved o call := by
  cases call with
  | resetParser => exact ⟨rfl, rfl⟩
  | hasFreshTarget =>
      simp only [WellBehaved, devVisionHasFreshTarget]
      split_ifs with hfresh
      · exact ⟨rfl, fun _ => hfresh⟩
      · exact ⟨rfl, id⟩
  | onRxByte byte nowMs event =>
      obtain ⟨before, pending, -, hreceived, hreading⟩ := h
      have hprogress := progress_onRxByte hreading byte nowMs event
      refine ⟨?_, ?_, payload_onRxByte _ _ _ _, fun i => storeIndex_lt hreading⟩
      · intro hreturned
        cases hprogress with
        | reading _ hquiet => simp [hquiet.1] at hreturned
        | rejected _ _ hquiet => simp [hquiet.1] at hreturned
        | frame _ f hframe hanswer =>
            cases he : f.event nowMs with
            | none =>
                rw [he] at hanswer
                simp [hanswer.1] at hreturned
            | some e =>
                rw [he] at hanswer
                refine ⟨f, e, ?_, dispatchable_of_event he, he, hanswer.2.1, hanswer.2.2⟩
                rw [hreceived, List.append_assoc, hframe]
                exact List.suffix_append ..
      · intro hreturned
        cases hprogress with
        | reading _ hquiet => exact hquiet.2.2
        | rejected _ _ hquiet => exact hquiet.2.2
        | frame _ f _ hanswer =>
            cases he : f.event nowMs with
            | none =>
                rw [he] at hanswer
                exact hanswer.2.2
            | some e =>
                rw [he] at hanswer
                simp [hanswer.1] at hreturned

/-- The parser accepts well-formed frames only: over every run of bytes, resets and
queries after `Dev_Vision_Init`, every call is well behaved. -/
theorem wellBehaved_run (run : List Call) : EachStep step WellBehaved start run :=
  EachStep.of_invariant tracked_step wellBehaved_of_tracked tracked_start

end NuedcFirmware.Modules.VisionParser
