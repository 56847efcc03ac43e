import NuedcFirmware.Platform.Board
import NuedcFirmware.Lib.Quadrature

/-!
The generic quadrature decoder of the platform layer, `drv_quad_encoder.c`.
-/

namespace NuedcFirmware.Platform

open NuedcFirmware.Lib

structure DrvQuadEncoderConfig where
  phaseA : DrvGpioPin
  phaseB : DrvGpioPin
  direction : ℤ

structure DrvQuadEncoder where
  config : DrvQuadEncoderConfig
  lastState : ℕ
  delta : ℤ
  total : ℤ

namespace DrvQuadEncoder

/-- `read_state`: phase A is the high bit. -/
def readState (config : DrvQuadEncoderConfig) (b : Board) : ℕ :=
  ((drvGpioReadRaw config.phaseA b).toNat <<< 1) ||| (drvGpioReadRaw config.phaseB b).toNat

/-- The transition table of `decode_step` in `drv_quad_encoder.c`. -/
def stepTable : List ℤ :=
  [ 0,  1, -1,  0,
   -1,  0,  0,  1,
    1,  0,  0, -1,
    0, -1,  1,  0]

/-- `decode_step`. -/
def decodeStep (last cur : ℕ) : ℤ :=
  stepTable.getD (((last &&& 3) <<< 2) ||| (cur &&& 3)) 0

end DrvQuadEncoder

def drvQuadEncoderInit (config : DrvQuadEncoderConfig) (b : Board) : DrvQuadEncoder :=
  let config := if config.direction = 0 then { config with direction := 1 } else config
  { config, lastState := DrvQuadEncoder.readState config b, delta := 0, total := 0 }

def drvQuadEncoderPoll (b : Board) (encoder : DrvQuadEncoder) : DrvQuadEncoder :=
  let cur := DrvQuadEncoder.readState encoder.config b
  let step := DrvQuadEncoder.decodeStep encoder.lastState cur * encoder.config.direction
  { encoder with
    lastState := cur
    delta := encoder.delta + step
    total := encoder.total + step }

def drvQuadEncoderGetDelta (encoder : DrvQuadEncoder) : ℤ × DrvQuadEncoder :=
  (encoder.delta, { encoder with delta := 0 })

def drvQuadEncoderGetTotal (encoder : DrvQuadEncoder) : ℤ := encoder.total

def drvQuadEncoderReset (b : Board) (encoder : DrvQuadEncoder) : DrvQuadEncoder :=
  { encoder with
    delta := 0
    total := 0
    lastState := DrvQuadEncoder.readState encoder.config b }

theorem DrvQuadEncoder.decodeStep_exactOnSteps : ExactOnSteps DrvQuadEncoder.decodeStep :=
  exactOnSteps_of_cycle (by decide)

end NuedcFirmware.Platform
