import NuedcFirmware.Lib.StatusLog
import NuedcFirmware.Modules.Icm45688

/-!
The register access of the vendor driver, `inv_imu_transport.c`.

A register up to 0xFF is accessed directly. The others lie behind two direct registers: an
address is written to `IREG_ADDR`, and every access to `IREG_DATA` is one to the register at
the address, which goes up by one then. Some of these addresses stall the device, and
`check_out_of_bounds_mreg` keeps the driver from them.

The callbacks of the transport are a parameter. No buffer is null, and one is what it holds
at every index.
-/

namespace NuedcFirmware.Modules

open NuedcFirmware.Lib

/-- `inv_imu_transport_t`: a reading gives the buffer afterwards and the status. -/
structure InvImuTransport (σ : Type) where
  readReg : UInt8 → (ℕ → UInt8) → UInt32 → Driver σ ((ℕ → UInt8) × ℤ)
  writeReg : UInt8 → (ℕ → UInt8) → UInt32 → Driver σ ℤ
  sleepUs : UInt32 → Driver σ Unit
  serifType : UInt32

/-- `UI_I2C` and `UI_SPI4`. -/
def uiI2c : UInt32 := 0
def uiSpi4 : UInt32 := 1

def invImuErrorTransport : ℤ := -3

def iregAddr158 : UInt8 := 0x7c
def iregData : UInt8 := 0x7e

namespace InvImu

/-! ### Registers -/

def pwrMgmt0 : UInt32 := 0x10
def int1Config0 : UInt32 := 0x16
def int1Config1 : UInt32 := 0x17
def int1Config2 : UInt32 := 0x18
def int1Status0 : UInt32 := 0x19
def accelConfig0 : UInt32 := 0x1b
def gyroConfig0 : UInt32 := 0x1c
def intfConfig1Ovrd : UInt32 := 0x2d
def driveConfig0 : UInt32 := 0x32
def int2Config2 : UInt32 := 0x58
def int2Status0 : UInt32 := 0x59
def whoAmI : UInt32 := 0x72
def regMisc2 : UInt32 := 0x7f
def sregCtrl : UInt32 := 0xa267
def ipregSys1Reg172 : UInt32 := 0xa4ac
def ipregSys2Reg131 : UInt32 := 0xa583

/-! ### Access -/

variable {σ : Type} (t : InvImuTransport σ)

def readDreg (reg : UInt8) (len : UInt32) (buf : ℕ → UInt8) : Driver σ ((ℕ → UInt8) × ℤ) := do
  let r ← t.readReg reg buf len
  return (r.1, if r.2 ≠ 0 then invImuErrorTransport else invImuOk)

def writeDreg (reg : UInt8) (len : UInt32) (buf : ℕ → UInt8) : Driver σ (Unit × ℤ) := do
  let status ← t.writeReg reg buf len
  return ((), if status ≠ 0 then invImuErrorTransport else invImuOk)

def checkOutOfBoundsMreg (reg len : UInt32) : ℤ :=
  let minAddr := reg
  let maxAddr := reg + len - 1
  if (minAddr > 0x000023FF ∧ minAddr ≤ 0x00003FFF) ∨
      (maxAddr > 0x000023FF ∧ maxAddr ≤ 0x00003FFF) ∨
      (minAddr ≤ 0x000023FF ∧ maxAddr > 0x00003FFF) then invImuErrorTransport
  else if (minAddr > 0x000083FF ∧ minAddr ≤ 0x00009FFF) ∨
      (maxAddr > 0x000083FF ∧ maxAddr ≤ 0x00009FFF) ∨
      (minAddr ≤ 0x000083FF ∧ maxAddr > 0x00009FFF) then invImuErrorTransport
  else if maxAddr > 0x0000AFFF then invImuErrorTransport
  else invImuOk

/-- The two bytes of the address. -/
def addressBytes (reg : UInt32) : List UInt8 :=
  [((reg &&& 0xFF00) >>> 8).toUInt8, (reg &&& 0xFF).toUInt8]

/-- The loop of `read_mreg` over `n` bytes from the `i`-th on. -/
def readEach : ℕ → ℕ → (ℕ → UInt8) → StatusM σ (ℕ → UInt8)
  | 0, _, buf => return buf
  | n + 1, i, buf => do
      t.sleepUs 4
      let byte ← orStatus (readDreg t iregData 1 fun j => buf (i + j))
      readEach n (i + 1) (Function.update buf i (byte 0))

/-- The loop of `write_mreg` over `n` bytes from the `i`-th on. -/
def writeEach (buf : ℕ → UInt8) : ℕ → ℕ → StatusM σ Unit
  | 0, _ => return ()
  | n + 1, i => do
      orStatus (writeDreg t iregData 1 fun j => buf (i + j))
      t.sleepUs 4
      writeEach buf n (i + 1)

def readMreg (reg len : UInt32) (buf : ℕ → UInt8) : Driver σ ((ℕ → UInt8) × ℤ) :=
  returnStatus do
    orStatus (pure ((), checkOutOfBoundsMreg reg len))
    if (← get) ≠ 0 then return buf
    else do
      t.sleepUs 4
      orStatus (writeDreg t iregAddr158 2 fun i => (addressBytes reg).getD i 0)
      if (← get) ≠ 0 then return buf
      else readEach t len.toNat 0 buf

def writeMreg (reg len : UInt32) (buf : ℕ → UInt8) : Driver σ (Unit × ℤ) :=
  returnStatus do
    orStatus (pure ((), checkOutOfBoundsMreg reg len))
    if (← get) ≠ 0 then return ()
    else do
      t.sleepUs 4
      orStatus (writeDreg t iregAddr158 3 fun i => (addressBytes reg ++ [buf 0]).getD i 0)
      t.sleepUs 4
      if (← get) ≠ 0 then return ()
      else writeEach t buf (len.toNat - 1) 1

def readReg (reg len : UInt32) (buf : ℕ → UInt8) : Driver σ ((ℕ → UInt8) × ℤ) :=
  if reg > 0xFF then readMreg t (reg &&& 0xFFFF) len buf else readDreg t reg.toUInt8 len buf

def writeReg (reg len : UInt32) (buf : ℕ → UInt8) : Driver σ (Unit × ℤ) :=
  if reg > 0xFF then writeMreg t reg len buf else writeDreg t reg.toUInt8 len buf

end InvImu

end NuedcFirmware.Modules
