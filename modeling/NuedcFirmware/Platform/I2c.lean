import NuedcFirmware.Lib.Bytes
import NuedcFirmware.Lib.Driver

/-!
`platform/mspm0g3507/drivers/drv_i2c.c`.

As for the SPI bus the driver library is a parameter, here with the masks of the status
register. The two counters of `Drv_I2c_ReadReg8`, the bytes still missing and the time
left for the next one, are the arguments of two loops, one inside the other.
-/

namespace NuedcFirmware.Platform

open NuedcFirmware.Lib

structure DrvI2cBus where
  /-- Address of the controller. -/
  inst : UInt32
  waitLimit : UInt32
  txFifoBytes : UInt8

def drvI2cDefaultWaitLimit : UInt32 := 100000

def drvI2cDefaultTxFifoBytes : UInt8 := 8

/-- The driver library, for the controller of the bus. -/
structure DlI2c (σ : Type) where
  statusError : UInt32
  statusIdle : UInt32
  statusBusy : UInt32
  statusBusyBus : UInt32
  getControllerStatus : Driver σ UInt32
  isControllerRXFIFOEmpty : Driver σ Bool
  receiveControllerData : Driver σ UInt8
  resetControllerTransfer : Driver σ Unit
  /-- The number of the bytes that were accepted. -/
  fillControllerTXFIFO : List UInt8 → Driver σ ℕ
  startControllerTransfer : (addr : UInt8) → (len : UInt16) → Driver σ Unit
  /-- Address and direction of a read. -/
  updateMSA : (addr : UInt8) → Driver σ Unit
  /-- Length of a read, and the bits that start it once the transmit FIFO is empty. -/
  updateMCTR : (len : UInt16) → Driver σ Unit

namespace DrvI2c

variable {σ : Type}

def waitLimit (bus : DrvI2cBus) : UInt32 :=
  if bus.waitLimit ≠ 0 then bus.waitLimit else drvI2cDefaultWaitLimit

def txFifoBytes (bus : DrvI2cBus) : UInt8 :=
  if bus.txFifoBytes ≠ 0 then bus.txFifoBytes else drvI2cDefaultTxFifoBytes

/-- The bus, unless the pointer to it is null or it has no controller. -/
def validBus (bus : Option DrvI2cBus) : Option DrvI2cBus := bus.filter fun b => b.inst ≠ 0

variable (dl : DlI2c σ)

def fail : Driver σ Bool := do
  dl.resetControllerTransfer
  return false

/-- The status says that the transfer goes on. -/
def unfinished (status : UInt32) : Bool :=
  status &&& dl.statusIdle = 0 || status &&& (dl.statusBusy ||| dl.statusBusyBus) ≠ 0

/-- The last reading allowed is in vain even where it finds the bus idle. -/
def waitIdle : ℕ → Driver σ Bool
  | 0 => do
      let _ ← dl.getControllerStatus
      fail dl
  | timeout + 1 => do
      let status ← dl.getControllerStatus
      if status &&& dl.statusError ≠ 0 then fail dl
      else if unfinished dl status then waitIdle timeout
      else return true

/-- Whether the result is 0, as for the other functions. -/
def drvI2cWaitIdle (bus : Option DrvI2cBus) : Driver σ Bool :=
  match validBus bus with
  | none => return false
  | some b => waitIdle dl (waitLimit b).toNat

/-- `data` of `len` bytes is given to the controller, and sent. -/
def drvI2cWrite (bus : Option DrvI2cBus) (addr : UInt8) (data : BytePtr) (len : UInt16) :
    Driver σ Bool :=
  match validBus bus with
  | none => return false
  | some b =>
      if data.null ∨ len = 0 ∨ (txFifoBytes b).toNat < len.toNat then return false
      else do
        dl.resetControllerTransfer
        if (← dl.fillControllerTXFIFO ((List.range len.toNat).map data.bytes)) ≠ len.toNat then
          fail dl
        else if ← drvI2cWaitIdle dl bus then
          dl.startControllerTransfer addr len
          drvI2cWaitIdle dl bus
        else return false

/-- `tx`: the register, and `data` behind it. -/
def txBytes (reg : UInt8) (data : BytePtr) : BytePtr where
  null := false
  bytes
    | 0 => reg
    | i + 1 => data.bytes i

def drvI2cWriteReg8 (bus : Option DrvI2cBus) (addr reg : UInt8) (data : BytePtr) (len : UInt16) :
    Driver σ Bool :=
  match validBus bus with
  | none => return false
  | some b =>
      if (txFifoBytes b).toNat - 1 < len.toNat ∨ drvI2cDefaultTxFifoBytes.toNat - 1 < len.toNat then
        return false
      else drvI2cWrite dl bus addr (txBytes reg data) (len + 1)

def startRegisterRead (addr : UInt8) (len : UInt16) : Driver σ Unit := do
  dl.updateMSA addr
  dl.updateMCTR len

/-- The readings up to the next byte; nothing where they are given up. -/
def nextByte : ℕ → Driver σ (Option UInt8)
  | 0 => do
      let status ← dl.getControllerStatus
      if status &&& dl.statusError ≠ 0 then
        dl.resetControllerTransfer
        return none
      else if ← dl.isControllerRXFIFOEmpty then
        dl.resetControllerTransfer
        return none
      else return some (← dl.receiveControllerData)
  | timeout + 1 => do
      let status ← dl.getControllerStatus
      if status &&& dl.statusError ≠ 0 then
        dl.resetControllerTransfer
        return none
      else if ← dl.isControllerRXFIFOEmpty then nextByte timeout
      else return some (← dl.receiveControllerData)

/-- The time for a byte where `n` are missing, in the arithmetic of the code. -/
def byteTimeout (bus : DrvI2cBus) (n : ℕ) : UInt32 := waitLimit bus * (UInt32.ofNat n + 1)

/-- The loop where `n` bytes are missing, the next one the `i`-th; the time left is set
again with every byte. -/
def readBytes (bus : DrvI2cBus) : ℕ → ℕ → (ℕ → UInt8) → Driver σ (Bool × (ℕ → UInt8))
  | 0, _, data => return (true, data)
  | n + 1, i, data => do
      match ← nextByte dl (byteTimeout bus (n + 1)).toNat with
      | none => return (false, data)
      | some b => readBytes bus n (i + 1) (Function.update data i b)

/-- With whether the result is 0, the bytes of `data` afterwards. -/
def drvI2cReadReg8 (bus : Option DrvI2cBus) (addr reg : UInt8) (data : BytePtr) (len : UInt16) :
    Driver σ (Bool × (ℕ → UInt8)) :=
  match validBus bus with
  | none => return (false, data.bytes)
  | some b =>
      if data.null ∨ len = 0 ∨ 0x0FFF < len then return (false, data.bytes)
      else do
        dl.resetControllerTransfer
        if (← dl.fillControllerTXFIFO [reg]) ≠ 1 then return (← fail dl, data.bytes)
        else if ← drvI2cWaitIdle dl bus then
          startRegisterRead dl addr len
          let (ok, rx) ← readBytes dl b len.toNat 0 data.bytes
          if ok then return (← drvI2cWaitIdle dl bus, rx) else return (false, rx)
        else return (false, data.bytes)

end DrvI2c

end NuedcFirmware.Platform
