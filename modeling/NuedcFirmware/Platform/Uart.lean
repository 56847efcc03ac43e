import NuedcFirmware.Lib.Bytes
import NuedcFirmware.Lib.Driver

/-!
The transmitter of `platform/mspm0g3507/drivers/drv_uart.c`.
-/

namespace NuedcFirmware.Platform

open NuedcFirmware.Lib

structure DrvUartPort where
  /-- Address of the UART. -/
  inst : UInt32

/-- The driver library, for the UART of the port. -/
structure DlUart (σ : Type) where
  isBusy : Driver σ Bool
  transmitData : UInt8 → Driver σ Unit

namespace DrvUart

variable {σ : Type} (dl : DlUart σ)

/-- The loop over `n` bytes from the `i`-th on. The wait before a byte has no limit. -/
def writeBytes (fuel : ℕ) (data : ℕ → UInt8) : ℕ → ℕ → Driver σ Unit
  | 0, _ => return ()
  | n + 1, i => do
      waitClear dl.isBusy (return ()) fuel
      dl.transmitData (data i)
      writeBytes fuel data n (i + 1)

def drvUartWriteBlocking (fuel : ℕ) (uart : Option DrvUartPort) (data : BytePtr) (len : UInt16) :
    Driver σ Unit :=
  match uart with
  | none => return ()
  | some port =>
      if port.inst = 0 ∨ data.null then return ()
      else writeBytes dl fuel data.bytes len.toNat 0

end DrvUart

end NuedcFirmware.Platform
