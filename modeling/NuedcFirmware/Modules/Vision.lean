import NuedcFirmware.Lib.Bytes
import Mathlib.Logic.Function.Basic

/-!
The vision module `dev_vision.c`: the byte-wise parser of the camera's frames
`AA 55 L T P[0..L-1] X 0D 0A`, and what it makes of a complete one.

The event a caller passes by pointer is an `Option`: `none` is the null pointer,
and `some` the content of the caller's record. The `default` branch of the
parser's `switch` is for values that its enumeration does not have.
-/

namespace NuedcFirmware.Modules

open NuedcFirmware.Lib

/-- `DEV_VISION_MAX_PAYLOAD`. -/
def devVisionMaxPayload : ℕ := 32

structure DevVisionTarget where
  centerX : ℤ
  centerY : ℤ
  classId : UInt8
  area : ℕ
  tsMs : UInt32
  deriving DecidableEq, Repr

inductive DevVisionEventType
  | none
  | target
  | command
  deriving DecidableEq, Repr

structure DevVisionEvent where
  type : DevVisionEventType
  target : DevVisionTarget
  command : UInt8
  frameType : UInt8
  deriving DecidableEq, Repr

inductive DevVisionParseState
  | sync1
  | sync2
  | len
  | type
  | data
  | crc
  | cr
  | lf
  deriving DecidableEq, Repr

/-- The parser's record. `payload` is the memory from the first element of the
array on, of which the array has the first `devVisionMaxPayload` bytes. -/
structure DevVision where
  state : DevVisionParseState
  len : UInt8
  frameType : UInt8
  index : UInt8
  crcCalc : UInt8
  payload : ℕ → UInt8
  target : DevVisionTarget
  freshTarget : Bool

/-- The `memset` of a target. -/
def DevVisionTarget.zero : DevVisionTarget := ⟨0, 0, 0, 0, 0⟩

/-- The `memset` of an event. -/
def DevVisionEvent.zero : DevVisionEvent := ⟨.none, DevVisionTarget.zero, 0, 0⟩

/-- `clear_event`. -/
def clearEvent (event : Option DevVisionEvent) : Option DevVisionEvent :=
  event.map fun _ => DevVisionEvent.zero

/-- What a call comes to: the value it returns, the event, and the record. -/
structure RxResult where
  returned : Bool
  event : Option DevVisionEvent
  vision : DevVision

/-- The target that the payload describes. -/
def DevVision.payloadTarget (vision : DevVision) (nowMs : UInt32) : DevVisionTarget :=
  let word (i : ℕ) : ℕ := (vision.payload i).toNat ||| (vision.payload (i + 1)).toNat <<< 8
  { centerX := toInt16 (word 0)
    centerY := toInt16 (word 2)
    classId := vision.payload 4
    area := word 5
    tsMs := nowMs }

/-- `dispatch_frame`. -/
def dispatchFrame (vision : DevVision) (nowMs : UInt32) (event : Option DevVisionEvent) :
    RxResult :=
  let event := clearEvent event
  if vision.frameType = 0x01 ∧ vision.len ≥ 7 then
    let vision := { vision with target := vision.payloadTarget nowMs, freshTarget := true }
    { returned := true
      event := event.map fun event =>
        { event with type := .target, target := vision.target, frameType := vision.frameType }
      vision }
  else if vision.frameType = 0x02 ∧ vision.len ≥ 1 then
    { returned := true
      event := event.map fun event =>
        { event with
          type := .command, command := vision.payload 0, frameType := vision.frameType }
      vision }
  else { returned := false, event, vision }

/-- `Dev_Vision_Init`. -/
def devVisionInit : DevVision where
  state := .sync1
  len := 0
  frameType := 0
  index := 0
  crcCalc := 0
  payload _ := 0
  target := DevVisionTarget.zero
  freshTarget := false

/-- `Dev_Vision_ResetParser`. -/
def devVisionResetParser (vision : DevVision) : DevVision :=
  { vision with state := .sync1, len := 0, frameType := 0, index := 0, crcCalc := 0 }

/-- `payload[index++] = byte`, with the checksum. -/
def DevVision.store (vision : DevVision) (byte : UInt8) : DevVision :=
  { vision with
    payload := Function.update vision.payload vision.index.toNat byte
    index := vision.index + 1
    crcCalc := vision.crcCalc ^^^ byte }

/-- `Dev_Vision_OnRxByte`. -/
def devVisionOnRxByte (vision : DevVision) (byte : UInt8) (nowMs : UInt32)
    (event : Option DevVisionEvent) : RxResult :=
  let event := clearEvent event
  let goOn (vision : DevVision) : RxResult := { returned := false, event, vision }
  match vision.state with
  | .sync1 => goOn (if byte = 0xAA then { vision with state := .sync2 } else vision)
  | .sync2 => goOn { vision with state := if byte = 0x55 then .len else .sync1 }
  | .len =>
      if byte = 0 ∨ byte.toNat > devVisionMaxPayload then goOn { vision with state := .sync1 }
      else goOn { vision with len := byte, crcCalc := byte, state := .type }
  | .type =>
      goOn
        { vision with
          frameType := byte, crcCalc := vision.crcCalc ^^^ byte, index := 0, state := .data }
  | .data =>
      let vision := if vision.index < vision.len then vision.store byte else vision
      goOn (if vision.index ≥ vision.len then { vision with state := .crc } else vision)
  | .crc => goOn { vision with state := if byte = vision.crcCalc then .cr else .sync1 }
  | .cr => goOn { vision with state := if byte = 0x0D then .lf else .sync1 }
  | .lf =>
      let vision := { vision with state := .sync1 }
      if byte = 0x0A then dispatchFrame vision nowMs event else goOn vision

/-- The index at which the next byte is written to `payload`, if it is. -/
def DevVision.storeIndex (vision : DevVision) : Option ℕ :=
  match vision.state with
  | .data => if vision.index < vision.len then some vision.index.toNat else none
  | _ => none

/-- `Dev_Vision_HasFreshTarget`. -/
def devVisionHasFreshTarget (vision : DevVision) : Bool × DevVision :=
  if vision.freshTarget then (true, { vision with freshTarget := false }) else (false, vision)

/-! ### Frames -/

/-- The fields of a target are within the types they are declared with. -/
structure DevVisionTarget.Fits (target : DevVisionTarget) : Prop where
  centerX : -2 ^ 15 ≤ target.centerX ∧ target.centerX < 2 ^ 15
  centerY : -2 ^ 15 ≤ target.centerY ∧ target.centerY < 2 ^ 15
  area : target.area < 2 ^ 16

/-- A well-formed frame, by its type and its payload. -/
structure VisionFrame where
  frameType : UInt8
  payload : List UInt8
  pos : 1 ≤ payload.length
  le : payload.length ≤ devVisionMaxPayload

namespace VisionFrame

def len (f : VisionFrame) : UInt8 := UInt8.ofNat f.payload.length

/-- The frame up to its payload. -/
def body (f : VisionFrame) : List UInt8 := 0xAA :: 0x55 :: f.len :: f.frameType :: f.payload

def crc (f : VisionFrame) : UInt8 := xorSum (f.len :: f.frameType :: f.payload)

def bytes (f : VisionFrame) : List UInt8 := f.body ++ [f.crc, 0x0D, 0x0A]

/-- Byte `i` of the payload. -/
def byte (f : VisionFrame) (i : ℕ) : UInt8 := f.payload.getD i 0

/-- What the frame says, at the time of its last byte: a target, a command, or
nothing. -/
def event (f : VisionFrame) (nowMs : UInt32) : Option DevVisionEvent :=
  if f.frameType = 1 ∧ 7 ≤ f.payload.length then
    some
      { type := .target
        target :=
          { centerX := int16 (f.byte 0) (f.byte 1)
            centerY := int16 (f.byte 2) (f.byte 3)
            classId := f.byte 4
            area := word16 (f.byte 5) (f.byte 6)
            tsMs := nowMs }
        command := 0
        frameType := f.frameType }
  else if f.frameType = 2 then
    some
      { type := .command
        target := DevVisionTarget.zero
        command := f.byte 0
        frameType := f.frameType }
  else none

/-- The frame that reports a target, with further bytes behind its fields. -/
def ofTarget (target : DevVisionTarget) (more : List UInt8) (h : more.length ≤ 25) :
    VisionFrame where
  frameType := 1
  payload :=
    lowByte target.centerX :: highByte target.centerX ::
      lowByte target.centerY :: highByte target.centerY :: target.classId ::
      lowByte target.area :: highByte target.area :: more
  pos := Nat.succ_pos _
  le := Nat.add_le_add_right h 7

variable (f : VisionFrame)

theorem toNat_len : f.len.toNat = f.payload.length := by
  have hle := f.le
  rw [devVisionMaxPayload] at hle
  rw [len, UInt8.toNat_ofNat', Nat.mod_eq_of_lt (by omega)]

/-- The fields of a target come back out of the frame that reports it. -/
theorem event_ofTarget {target : DevVisionTarget} (more : List UInt8) (h : more.length ≤ 25)
    (hfits : target.Fits) (nowMs : UInt32) :
    (ofTarget target more h).event nowMs =
      some ⟨.target, { target with tsMs := nowMs }, 0, 1⟩ := by
  rw [event, if_pos ⟨rfl, by simp [ofTarget]⟩]
  simp [ofTarget, byte, int16_bytes hfits.centerX.1 hfits.centerX.2,
    int16_bytes hfits.centerY.1 hfits.centerY.2, word16_bytes hfits.area]

/-- A frame is told from its beginning: the length says where it ends. -/
theorem body_append_inj {f f' : VisionFrame} {s t : List UInt8}
    (h : f.body ++ s = f'.body ++ t) : f = f' ∧ s = t := by
  simp only [body, List.cons_append, List.cons.injEq, true_and] at h
  obtain ⟨hlen, htype, hpayload⟩ := h
  have hlength : f.payload.length = f'.payload.length := by
    rw [← f.toNat_len, ← f'.toNat_len, hlen]
  obtain ⟨hpayload, hrest⟩ := List.append_inj hpayload hlength
  refine ⟨?_, hrest⟩
  cases f
  cases f'
  simp_all

theorem eq_of_bytes_prefix {f f' : VisionFrame} (h : f.bytes <+: f'.bytes) : f = f' := by
  obtain ⟨rest, hrest⟩ := h
  rw [bytes, List.append_assoc] at hrest
  exact (body_append_inj hrest).1

/-- Only the time stamp of a target depends on the time. -/
theorem event_congr {f f' : VisionFrame} {nowMs : UInt32} (h : f.event nowMs = f'.event nowMs)
    (nowMs' : UInt32) : f.event nowMs' = f'.event nowMs' := by
  unfold event at h ⊢
  split_ifs at h ⊢ <;> simp_all

end VisionFrame

end NuedcFirmware.Modules
