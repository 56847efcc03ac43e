import NuedcFirmware.Modules.Motor

/-!
The wheel encoders of the car, `bsp_encoder.c`: the shared GPIO interrupt
handler decodes the edges of both wheels into running totals, and the tasks take
deltas, read totals and reset them with interrupts masked.

`GROUP1_IRQHandler` is given in the steps it executes, so that pin changes can
be placed between them; `group1IrqHandler` is the handler run without one.
-/

namespace NuedcFirmware.Modules

open NuedcFirmware.Lib NuedcFirmware.Platform

/-- The static state of `bsp_encoder.c`, each pair of variables by its side. -/
structure BspEncoder where
  lastState : Wheel → ℕ
  pollState : Wheel → ℕ
  seenMask : Wheel → ℕ
  changeCount : Wheel → UInt32
  total : Wheel → ℤ
  reported : Wheel → ℤ

/-- `ENC_LEFT_A_PIN`, `ENC_RIGHT_A_PIN`. -/
def encPhaseA (w : Wheel) : Pin := (sMotorConfig w).encoder.phaseA.pin

/-- `ENC_LEFT_B_PIN`, `ENC_RIGHT_B_PIN`. -/
def encPhaseB (w : Wheel) : Pin := (sMotorConfig w).encoder.phaseB.pin

/-- The channel argument of the API: 0 is the left wheel, anything else the
right one. -/
def encoderChannel (ch : ℕ) : Wheel := if ch = 0 then .left else .right

/-- `encoder_state`: the levels of the two phase pins, phase A as the high bit. -/
def encoderState (b : Board) (w : Wheel) : ℕ :=
  ((b.input (encPhaseA w)).toNat <<< 1) ||| (b.input (encPhaseB w)).toNat

namespace BspEncoder

/-- The transition table of `decode_step` in `bsp_encoder.c`. -/
def stepTable : List ℤ :=
  [ 0,  1, -1,  0,
   -1,  0,  0,  1,
    1,  0,  0, -1,
    0, -1,  1,  0]

/-- `decode_step`. -/
def decodeStep (last current : ℕ) : ℤ :=
  stepTable.getD (((last &&& 3) <<< 2) ||| (current &&& 3)) 0

theorem decodeStep_exactOnSteps : ExactOnSteps decodeStep :=
  exactOnSteps_of_cycle (by decide)

/-- One branch of the handler: sample the wheel's pins and count the step. -/
def decode (w : Wheel) (b : Board) (s : BspEncoder) : BspEncoder :=
  let current := encoderState b w
  { s with
    total := Function.update s.total w (s.total w + decodeStep (s.lastState w) current)
    lastState := Function.update s.lastState w current }

end BspEncoder

def bspEncoderInit (b : Board) : BspEncoder where
  lastState w := encoderState b w
  pollState w := encoderState b w
  seenMask w := 1 <<< encoderState b w
  changeCount _ := 0
  total _ := 0
  reported _ := 0

/-- The per-wheel half of `BSP_Encoder_Poll`. -/
def BspEncoder.pollWheel (w : Wheel) (b : Board) (s : BspEncoder) : BspEncoder :=
  let state := encoderState b w
  let s := { s with seenMask := Function.update s.seenMask w (s.seenMask w ||| 1 <<< state) }
  if state ≠ s.pollState w then
    { s with
      changeCount := Function.update s.changeCount w (s.changeCount w + 1)
      pollState := Function.update s.pollState w state }
  else s

def bspEncoderPoll (b : Board) (s : BspEncoder) : BspEncoder :=
  (s.pollWheel .left b).pollWheel .right b

def bspEncoderGetDelta (ch : ℕ) (s : BspEncoder) : ℤ × BspEncoder :=
  let w := encoderChannel ch
  let total := s.total w
  let delta := total - s.reported w
  (toInt32 delta, { s with reported := Function.update s.reported w total })

def bspEncoderGetTotal (ch : ℕ) (s : BspEncoder) : ℤ := s.total (encoderChannel ch)

def bspEncoderReset (ch : ℕ) (b : Board) (s : BspEncoder) : BspEncoder :=
  let w := encoderChannel ch
  let state := encoderState b w
  { lastState := Function.update s.lastState w state
    pollState := Function.update s.pollState w state
    seenMask := Function.update s.seenMask w (1 <<< state)
    changeCount := Function.update s.changeCount w 0
    total := Function.update s.total w 0
    reported := Function.update s.reported w 0 }

/-! ### The interrupt handler, step by step -/

/-- The four phase pins whose edge interrupts are enabled. -/
def encoderPin (p : Pin) : Bool :=
  p = encPhaseA .left || p = encPhaseB .left || p = encPhaseA .right || p = encPhaseB .right

/-- The first step: latch the enabled edges that are pending. -/
def group1Pending (b : Board) : Pin → Bool := fun p => encoderPin p && b.edgeStatus p

/-- A phase pin of the wheel is among the latched ones. -/
def wheelPending (pending : Pin → Bool) (w : Wheel) : Bool :=
  pending (encPhaseA w) || pending (encPhaseB w)

/-- The second and third step: sample and decode the wheel if it is pending. -/
def group1Service (w : Wheel) (pending : Pin → Bool) (b : Board) (s : BspEncoder) :
    BspEncoder :=
  if wheelPending pending w then s.decode w b else s

/-- The last step: clear the latched bits, whatever has happened since. -/
def group1Clear (pending : Pin → Bool) (b : Board) : Board :=
  { b with edgeStatus := fun p => b.edgeStatus p && !pending p }

/-- `GROUP1_IRQHandler`, no pin changing while it runs. -/
def group1IrqHandler (s : BspEncoder) (b : Board) : BspEncoder × Board :=
  let pending := group1Pending b
  let s := group1Service .left pending b s
  let s := group1Service .right pending b s
  (s, group1Clear pending b)

end NuedcFirmware.Modules
