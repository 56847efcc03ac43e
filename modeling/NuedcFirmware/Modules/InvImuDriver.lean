import NuedcFirmware.Lib.BitField
import NuedcFirmware.Lib.Bytes
import NuedcFirmware.Modules.InvImuTransport

/-!
The vendor driver of the sensor, `inv_imu_driver.c`, as far as `dev_icm45688.c` uses it.

A function goes on after a transfer that failed. A local variable that such a transfer leaves
as it was has not been initialised then; what it holds is an argument, `uninit`.
-/

namespace NuedcFirmware.Modules

open NuedcFirmware.Lib

/-- `inv_imu_device_t`, without its transport. -/
structure InvImuDevice where
  fifoFrameSize : UInt8
  endiannessData : UInt8

inductive InvImuIntNum
  | int1
  | int2

/-- `inv_imu_int_state_t`. -/
structure InvImuIntState where
  fifoFull : Bool
  fifoThs : Bool
  uiDrdy : Bool
  ois1 : Bool
  uiFsync : Bool
  agcRdy : Bool
  ois1AgcRdy : Bool
  resetDone : Bool
  pllRdy : Bool
  womX : Bool
  womY : Bool
  womZ : Bool
  i3cProtErr : Bool
  i2cmDone : Bool
  edmpEvent : Bool

/-- `inv_imu_int_pin_config_t`. -/
structure InvImuIntPinConfig where
  intPolarity : BitVec 1
  intMode : BitVec 1
  intDrive : BitVec 1

def invImuWhoami : UInt8 := 0xE9

namespace InvImu

/-- A bit-field of a register is read. -/
def getBits (lo w : ℕ) (b : UInt8) : BitVec w := field lo w b.toBitVec

/-- A bit-field of a register is assigned. -/
def setBits {w : ℕ} (lo : ℕ) (v : BitVec w) (b : UInt8) : UInt8 := ⟨withField lo v b.toBitVec⟩

variable {σ : Type} (t : InvImuTransport σ)

/-- `inv_imu_read_reg` of one byte into a local variable. -/
def readReg1 (reg : UInt32) (uninit : UInt8) : Driver σ (UInt8 × ℤ) := do
  let r ← readReg t reg 1 fun _ => uninit
  return (r.1 0, r.2)

/-- `inv_imu_write_reg` of one byte. -/
def writeReg1 (reg : UInt32) (b : UInt8) : Driver σ (Unit × ℤ) := writeReg t reg 1 fun _ => b

/-- `inv_imu_get_endianness`. -/
def getEndianness (dev : InvImuDevice) (uninit : UInt8) : Driver σ (InvImuDevice × ℤ) :=
  returnStatus do
    let sreg ← orStatus (readReg1 t sregCtrl uninit)
    if (← get) ≠ 0 then return dev
    else return { dev with endiannessData := ⟨(getBits 1 1 sreg).setWidth 8⟩ }

/-- `inv_imu_soft_reset`. -/
def softReset (dev : InvImuDevice) (uninit : ℕ → UInt8) : Driver σ (InvImuDevice × ℤ) :=
  returnStatus do
    let intf ← orStatus (readReg1 t intfConfig1Ovrd (uninit 0))
    let drive ← orStatus (readReg1 t driveConfig0 (uninit 1))
    orStatus (writeReg1 t regMisc2 (setBits 1 1#1 0))
    t.sleepUs 1000
    orStatus (writeReg1 t driveConfig0 drive)
    orStatus (writeReg1 t intfConfig1Ovrd intf)
    let dev ← orStatus (getEndianness t { dev with fifoFrameSize := 0 } (uninit 2))
    let int1Status ← orStatus (readReg1 t int1Status0 (uninit 3))
    if getBits 7 1 int1Status ≠ 1 then set invImuError
    return dev

/-- `inv_imu_get_who_am_i`. -/
def getWhoAmI (who : UInt8) : Driver σ (UInt8 × ℤ) := do
  let r ← readReg1 t whoAmI who
  if t.serifType = uiI2c ∧ r.2 ≠ 0 then readReg1 t whoAmI r.1 else return r

/-! ### Settings -/

/-- A register is read, one of its fields is assigned, and it is written back. -/
def updateField {w : ℕ} (reg : UInt32) (lo : ℕ) (v : BitVec w) (uninit : UInt8) :
    Driver σ (Unit × ℤ) :=
  returnStatus do
    let b ← orStatus (readReg1 t reg uninit)
    orStatus (writeReg1 t reg (setBits lo v b))

/-- `inv_imu_set_accel_frequency`. -/
def setAccelFrequency (frequency : BitVec 4) := updateField t accelConfig0 0 frequency

/-- `inv_imu_set_gyro_frequency`. -/
def setGyroFrequency (frequency : BitVec 4) := updateField t gyroConfig0 0 frequency

/-- `inv_imu_set_accel_fsr`. -/
def setAccelFsr (accelFsr : BitVec 3) := updateField t accelConfig0 4 accelFsr

/-- `inv_imu_set_gyro_fsr`. -/
def setGyroFsr (gyroFsr : BitVec 4) := updateField t gyroConfig0 4 gyroFsr

/-- `inv_imu_set_gyro_ln_bw`. -/
def setGyroLnBw (gyrBw : BitVec 3) := updateField t ipregSys1Reg172 0 gyrBw

/-- `inv_imu_set_accel_ln_bw`. -/
def setAccelLnBw (accBw : BitVec 3) := updateField t ipregSys2Reg131 0 accBw

/-- The mode of one half of the sensor, a field of `PWR_MGMT0`. -/
def setMode (lo : ℕ) (mode : BitVec 2) (dev : InvImuDevice) (uninit : ℕ → UInt8) :
    Driver σ (InvImuDevice × ℤ) :=
  returnStatus do
    let dev ← orStatus (getEndianness t dev (uninit 0))
    let b ← orStatus (readReg1 t pwrMgmt0 (uninit 1))
    orStatus (writeReg1 t pwrMgmt0 (setBits lo mode b))
    return dev

/-- `inv_imu_set_accel_mode`. -/
def setAccelMode (accelMode : BitVec 2) := setMode t 0 accelMode

/-- `inv_imu_set_gyro_mode`. -/
def setGyroMode (gyroMode : BitVec 2) := setMode t 2 gyroMode

/-- The three fields that `inv_imu_set_pin_config_int` assigns. -/
def pinConfig (conf : InvImuIntPinConfig) (b : UInt8) : UInt8 :=
  setBits 2 conf.intDrive (setBits 1 conf.intMode (setBits 0 conf.intPolarity b))

/-- `inv_imu_set_pin_config_int`. -/
def setPinConfigInt (num : InvImuIntNum) (conf : InvImuIntPinConfig) (uninit : UInt8) :
    Driver σ (Unit × ℤ) :=
  returnStatus do
    let reg := match num with
      | .int1 => int1Config2
      | .int2 => int2Config2
    let b ← orStatus (readReg1 t reg uninit)
    orStatus (writeReg1 t reg (pinConfig conf b))

/-! ### Readings -/

/-- The fields of the two status registers. -/
def intState (status0 status1 : UInt8) : InvImuIntState :=
  let bit (b : UInt8) (lo : ℕ) : Bool := getBits lo 1 b = 1
  { fifoFull := bit status0 0
    fifoThs := bit status0 1
    uiDrdy := bit status0 2
    ois1 := bit status0 3
    uiFsync := bit status0 4
    agcRdy := bit status0 5
    ois1AgcRdy := bit status0 6
    resetDone := bit status0 7
    pllRdy := bit status1 0
    womX := bit status1 1
    womY := bit status1 2
    womZ := bit status1 3
    i3cProtErr := bit status1 4
    i2cmDone := bit status1 5
    edmpEvent := bit status1 6 }

/-- `inv_imu_get_int_status`. -/
def getIntStatus (num : InvImuIntNum) (uninit : ℕ → UInt8) : Driver σ (InvImuIntState × ℤ) :=
  returnStatus do
    let reg := match num with
      | .int1 => int1Status0
      | .int2 => int2Status0
    let buf ← orStatus (readReg t reg 2 uninit)
    return intState (buf 0) (buf 1)

/-- `FORMAT_16_BITS_DATA`, into a signed word. -/
def format16BitsData (isBigEndian p₀ p₁ : UInt8) : ℤ :=
  toInt16 (if isBigEndian = 1 then p₀.toNat <<< 8 ||| p₁.toNat else p₁.toNat <<< 8 ||| p₀.toNat : ℕ)

/-- The words of `inv_imu_sensor_data_t`, one after the other. -/
def formatData (isBigEndian : UInt8) (buf : ℕ → UInt8) : InvImuSensorData :=
  let word (i : ℕ) := format16BitsData isBigEndian (buf (2 * i)) (buf (2 * i + 1))
  { accelX := word 0
    accelY := word 1
    accelZ := word 2
    gyroX := word 3
    gyroY := word 4
    gyroZ := word 5
    temp := word 6 }

/-- `sizeof(inv_imu_sensor_data_t)`. -/
def sensorDataSize : UInt32 := 14

/-- `ACCEL_DATA_X1_UI`, the first register of a sample. -/
def accelDataX1Ui : UInt32 := 0x00

/-- `inv_imu_get_register_data`. -/
def getRegisterData (dev : InvImuDevice) (uninit : ℕ → UInt8) :
    Driver σ (InvImuSensorData × ℤ) :=
  returnStatus do
    let buf ← orStatus (readReg t accelDataX1Ui sensorDataSize uninit)
    return formatData dev.endiannessData buf

end InvImu

end NuedcFirmware.Modules
