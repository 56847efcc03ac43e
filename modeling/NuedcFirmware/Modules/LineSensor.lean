import NuedcFirmware.Lib.CFloat
import NuedcFirmware.Platform.Board

/-!
The line sensor: the array of digital channels (`drv_line_sensor.c`), the frame
computed from one reading (`dev_line_sensor.c`) and the sensor of the car
(`bsp_adc.c`).
-/

namespace NuedcFirmware.Modules

open NuedcFirmware.Lib NuedcFirmware.Platform

/-! ### `drv_line_sensor.c` -/

def drvLineSensorMaxCount : ℕ := 8

structure DrvLineSensorArray where
  count : ℕ
  activeRaw : ℕ
  inactiveRaw : ℕ
  channels : List DrvGpioPin

def drvLineSensorCount (array : DrvLineSensorArray) : ℕ :=
  if array.count > drvLineSensorMaxCount then drvLineSensorMaxCount else array.count

/-- Whether channel `i` of the array is active. -/
def DrvLineSensorArray.active (array : DrvLineSensorArray) (b : Board) (i : ℕ) : Bool :=
  match array.channels[i]? with
  | some pin => drvGpioReadActive pin b
  | none => false

def drvLineSensorReadBits (array : DrvLineSensorArray) (b : Board) : ℕ :=
  (List.range (drvLineSensorCount array)).foldl
    (fun bits i => if array.active b i then bits ||| 1 <<< i else bits) 0

def drvLineSensorReadRaw (array : DrvLineSensorArray) (b : Board) (rawCount : ℕ) : List ℕ :=
  let count := drvLineSensorCount array
  let count := if count > rawCount then rawCount else count
  (List.range count).map fun i =>
    if array.active b i then array.activeRaw else array.inactiveRaw

/-! ### `dev_line_sensor.c` -/

def defaultContrastTh : ℕ := 120
def defaultStrengthTh : ℕ := 260

/-- The configuration. The array is the copy the sensor keeps, the callback is
given by the readings it delivers. -/
structure DevLineSensorConfig (F : Type*) where
  array : Option DrvLineSensorArray
  readRaw : Option (Board → ℕ → List ℕ)
  count : ℕ
  contrastThreshold : ℕ
  strengthThreshold : ℕ
  biasAlpha : F

structure DevLineSensorFrame (F : Type*) where
  raw : List ℕ
  count : ℕ
  bits : ℕ
  minValue : ℕ
  maxValue : ℕ
  contrast : ℕ
  strength : ℕ
  bias : F
  lastBias : F
  onLine : Bool

structure DevLineSensor (F : Type*) where
  config : DevLineSensorConfig F
  frame : DevLineSensorFrame F
  biasPrimed : Bool

variable {F : Type*} [CFloat F]

namespace DevLineSensor

/-- `clamp_count`. -/
def clampCount (count : ℕ) : ℕ :=
  if count > drvLineSensorMaxCount then drvLineSensorMaxCount else count

/-- `get_count`. -/
def getCount (config : DevLineSensorConfig F) : ℕ :=
  match config.array with
  | some array => drvLineSensorCount array
  | none => clampCount config.count

/-- `get_alpha`. -/
def getAlpha (config : DevLineSensorConfig F) : F :=
  let alpha := config.biasAlpha
  if alpha ≤ 0.0 ∨ alpha > 1.0 then 0.35 else alpha

/-- `get_contrast_threshold`. -/
def getContrastThreshold (config : DevLineSensorConfig F) : ℕ :=
  if config.contrastThreshold ≠ 0 then config.contrastThreshold else defaultContrastTh

/-- `get_strength_threshold`. -/
def getStrengthThreshold (config : DevLineSensorConfig F) : ℕ :=
  if config.strengthThreshold ≠ 0 then config.strengthThreshold else defaultStrengthTh

/-- `sensor_weight`. -/
def sensorWeight (index count : ℕ) : ℤ := 2 * index - (count - 1)

/-- `clamp_u16`. -/
def clampU16 (value : ℕ) : ℕ := if value > 65535 then 65535 else value

/-- `clear_unused_raw`: the channels from `count` on read 0. -/
def clearUnusedRaw (raw : List ℕ) (count : ℕ) : List ℕ :=
  (List.range drvLineSensorMaxCount).map fun i => if i < count then raw.getD i 0 else 0

/-- `bits_from_raw`. -/
def bitsFromRaw (frame : DevLineSensorFrame F) : ℕ :=
  if frame.count = 0 ∨ frame.contrast = 0 then 0
  else
    let threshold := (frame.minValue + frame.contrast / 2) % 2 ^ 16
    (List.range frame.count).foldl
      (fun bits i => if frame.raw.getD i 0 ≥ threshold then bits ||| 1 <<< i else bits) 0

/-- The frame of a sensor that has not been read. -/
def emptyFrame (count : ℕ) : DevLineSensorFrame F where
  raw := List.replicate drvLineSensorMaxCount 0
  count := count
  bits := 0
  minValue := 0
  maxValue := 0
  contrast := 0
  strength := 0
  bias := 0.0
  lastBias := 0.0
  onLine := false

end DevLineSensor

open DevLineSensor

def devLineSensorInit (config : DevLineSensorConfig F) : DevLineSensor F where
  config := config
  frame := emptyFrame (getCount config)
  biasPrimed := false

def devLineSensorReset (sensor : DevLineSensor F) : DevLineSensor F :=
  { sensor with frame := emptyFrame (getCount sensor.config), biasPrimed := false }

/-- The readings of one update: the callback's, else the array's, else those of
the frame before. The array fills all channels up to the count. A callback is
given by what it leaves in them, so one that leaves a channel alone is one that
delivers the value before. -/
def DevLineSensor.readings (sensor : DevLineSensor F) (b : Board) : List ℕ :=
  let count := getCount sensor.config
  match sensor.config.readRaw, sensor.config.array with
  | some readRaw, _ => readRaw b count
  | none, some array => drvLineSensorReadRaw array b count
  | none, none => sensor.frame.raw

/-- The filtered bias of a frame on the line. -/
def DevLineSensor.filterBias (sensor : DevLineSensor F) (rawBias : F) : F :=
  if !sensor.biasPrimed then rawBias
  else
    let alpha := getAlpha sensor.config
    alpha * rawBias + (1.0 - alpha) * sensor.frame.bias

def devLineSensorUpdate (sensor : DevLineSensor F) (b : Board) : DevLineSensor F :=
  let count := getCount sensor.config
  if count = 0 then
    { sensor with
      frame :=
        { sensor.frame with
          raw := clearUnusedRaw sensor.frame.raw 0, count, bits := 0, minValue := 0,
          maxValue := 0, contrast := 0, strength := 0, onLine := false } }
  else
    let raw := clearUnusedRaw (sensor.readings b) count
    let channel (i : ℕ) : ℕ := raw.getD i 0
    let minV := (List.range count).foldl (fun m i => min m (channel i)) (channel 0)
    let maxV := (List.range count).foldl (fun m i => max m (channel i)) (channel 0)
    let strength := (List.range count).foldl (fun sum i => sum + (channel i - minV)) 0
    let weighted : ℤ := (List.range count).foldl
      (fun sum i => sum + sensorWeight i count * ((channel i - minV : ℕ) : ℤ)) 0
    let contrast := maxV - minV
    let onLine := decide (contrast ≥ getContrastThreshold sensor.config ∧
      clampU16 strength ≥ getStrengthThreshold sensor.config)
    let frame : DevLineSensorFrame F :=
      { sensor.frame with
        raw, count, bits := 0, minValue := minV, maxValue := maxV, contrast,
        strength := clampU16 strength, onLine }
    let frame :=
      { frame with
        bits := match sensor.config.array with
          | some array => drvLineSensorReadBits array b
          | none => bitsFromRaw frame }
    if onLine ∧ strength ≠ 0 ∧ count > 1 then
      let span : F := (((count - 1 : ℕ) : ℤ) : F)
      let rawBias : F := (weighted : F) / (((strength : ℤ) : F) * span)
      let bias := sensor.filterBias rawBias
      { sensor with frame := { frame with bias, lastBias := bias }, biasPrimed := true }
    else
      { sensor with frame := { frame with bias := frame.lastBias } }

/-! ### `bsp_adc.c` -/

def bspAdcCcdCount : ℕ := 7

/-- `s_line_sensors`, over the pins of `pin_map.h`. -/
def sLineSensors : DrvLineSensorArray where
  count := bspAdcCcdCount
  activeRaw := 4095
  inactiveRaw := 0
  channels :=
    [ { pin := ⟨.gpioB, 20⟩, activeLow := false },
      { pin := ⟨.gpioB, 24⟩, activeLow := false },
      { pin := ⟨.gpioB, 25⟩, activeLow := false },
      { pin := ⟨.gpioA, 24⟩, activeLow := false },
      { pin := ⟨.gpioA, 25⟩, activeLow := false },
      { pin := ⟨.gpioA, 26⟩, activeLow := false },
      { pin := ⟨.gpioA, 27⟩, activeLow := false } ]

/-- `s_line_sensor_config`. -/
def sLineSensorConfig : DevLineSensorConfig F where
  array := some sLineSensors
  readRaw := none
  count := bspAdcCcdCount
  contrastThreshold := defaultContrastTh
  strengthThreshold := defaultStrengthTh
  biasAlpha := 0.35

def bspAdcInit : DevLineSensor F := devLineSensorInit sLineSensorConfig

/-- `BSP_Adc_GetCCD`: the channels of a new frame. -/
def bspAdcGetCCD (sensor : DevLineSensor F) (b : Board) : List ℕ × DevLineSensor F :=
  let sensor := devLineSensorUpdate sensor b
  ((List.range bspAdcCcdCount).map fun i => sensor.frame.raw.getD i 0, sensor)

end NuedcFirmware.Modules
