import NuedcFirmware.Lib.Bytes
import NuedcFirmware.Lib.Driver

/-!
`platform/mspm0g3507/drivers/drv_spi.c`.

The driver library is a parameter: a record of the accesses that the driver makes to the
SPI controller and to the chip select line of a bus. The board has one controller with one
device on it, so that they are named by no argument; the bus record is only looked at for
null pointers and for its limit.
-/

namespace NuedcFirmware.Platform

open NuedcFirmware.Lib

structure DrvSpiBus where
  /-- Address of the controller. -/
  inst : UInt32
  /-- Address of the port of the chip select line. -/
  csPort : UInt32
  csPin : UInt32
  waitLimit : UInt32

def drvSpiDefaultWaitLimit : UInt32 := 100000

/-- The driver library, for the controller of the bus and its chip select line. -/
structure DlSpi (σ : Type) where
  isBusy : Driver σ Bool
  isRXFIFOEmpty : Driver σ Bool
  isTXFIFOFull : Driver σ Bool
  receiveData8 : Driver σ UInt8
  transmitData8 : UInt8 → Driver σ Unit
  clearPins : Driver σ Unit
  setPins : Driver σ Unit

namespace DrvSpi

variable {σ : Type}

def waitLimit (bus : DrvSpiBus) : ℕ :=
  (if bus.waitLimit ≠ 0 then bus.waitLimit else drvSpiDefaultWaitLimit).toNat

/-- `valid`, of a bus pointer that is not null. -/
def valid (bus : DrvSpiBus) (data : BytePtr) (len : UInt32) : Bool :=
  bus.inst ≠ 0 && bus.csPort ≠ 0 && bus.csPin ≠ 0 && !data.null && len ≠ 0

variable (dl : DlSpi σ)

def drvSpiDeselect (bus : DrvSpiBus) : Driver σ Unit :=
  if bus.csPort = 0 ∨ bus.csPin = 0 then return () else dl.setPins

/-- Whether the controller was found idle, for a result of 0. -/
def waitNotBusy (bus : DrvSpiBus) : Driver σ Bool := poll dl.isBusy (waitLimit bus)

/-- The loop has no limit of its own. -/
def drainRx (fuel : ℕ) : Driver σ Unit :=
  waitClear (do return !(← dl.isRXFIFOEmpty)) (do let _ ← dl.receiveData8) fuel

/-- The byte received for `tx`, or nothing for a result of -1. -/
def transfer8 (bus : DrvSpiBus) (tx : UInt8) : Driver σ (Option UInt8) := do
  if ← poll dl.isTXFIFOFull (waitLimit bus) then
    dl.transmitData8 tx
    if ← poll dl.isRXFIFOEmpty (waitLimit bus) then
      return some (← dl.receiveData8)
  return none

/-- The loop over `n` bytes from the `i`-th on; the bytes received are stored over `rx`. -/
def transferBytes (bus : DrvSpiBus) (tx : ℕ → UInt8) :
    ℕ → ℕ → (ℕ → UInt8) → Driver σ (Bool × (ℕ → UInt8))
  | 0, _, rx => return (true, rx)
  | n + 1, i, rx => do
      match ← transfer8 dl bus (tx i) with
      | none => return (false, rx)
      | some b => transferBytes bus tx n (i + 1) (Function.update rx i b)

/-- What is done between `select` and `Drv_Spi_Deselect`. -/
def exchangeBytes (bus : DrvSpiBus) (command : UInt8) (tx : ℕ → UInt8) (len : UInt32)
    (rx : ℕ → UInt8) : Driver σ (Bool × (ℕ → UInt8)) := do
  match ← transfer8 dl bus command with
  | none => return (false, rx)
  | some _ =>
      let (ok, rx) ← transferBytes dl bus tx len.toNat 0 rx
      if ok then return (← waitNotBusy dl bus, rx) else return (false, rx)

/-- What `Drv_Spi_WriteReg8` and `Drv_Spi_ReadReg8` have in common: the command byte and
what is sent behind it are given. Returned is whether the result is 0, and `data` with the
bytes received in it. -/
def transferReg8 (fuel : ℕ) (bus : Option DrvSpiBus) (command : UInt8) (tx : ℕ → UInt8)
    (data : BytePtr) (len : UInt32) : Driver σ (Bool × (ℕ → UInt8)) :=
  match bus with
  | none => return (false, data.bytes)
  | some bus =>
      if valid bus data len then do
        if ← waitNotBusy dl bus then
          drainRx dl fuel
          dl.clearPins
          let r ← exchangeBytes dl bus command tx len data.bytes
          drvSpiDeselect dl bus
          return r
        else return (false, data.bytes)
      else return (false, data.bytes)

/-- The result, 0 or -1. -/
def status (ok : Bool) : ℤ := if ok then 0 else -1

/-- The bytes received are dropped. -/
def drvSpiWriteReg8 (fuel : ℕ) (bus : Option DrvSpiBus) (reg : UInt8) (data : BytePtr)
    (len : UInt32) : Driver σ ℤ := do
  let (ok, _) ← transferReg8 dl fuel bus (reg &&& 0x7F) data.bytes data len
  return status ok

/-- With the result, the bytes of `data` afterwards. -/
def drvSpiReadReg8 (fuel : ℕ) (bus : Option DrvSpiBus) (reg : UInt8) (data : BytePtr)
    (len : UInt32) : Driver σ (ℤ × (ℕ → UInt8)) := do
  let (ok, rx) ← transferReg8 dl fuel bus (reg ||| 0x80) (fun _ => 0x00) data len
  return (status ok, rx)

end DrvSpi

end NuedcFirmware.Platform
