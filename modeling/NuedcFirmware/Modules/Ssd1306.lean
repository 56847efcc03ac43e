import NuedcFirmware.Lib.Bytes
import NuedcFirmware.Platform.I2c

/-!
The display driver `ssd1306_mspm0.c`.

As for the buses of the platform the driver library is a parameter. The static variables
are the arguments `d` of the functions; only the initialisation, which is not modelled,
writes them.
-/

namespace NuedcFirmware.Modules

open NuedcFirmware.Lib NuedcFirmware.Platform

def ssd1306TextColumns : ℕ := 21

def ssd1306TextRows : UInt8 := 8

def ssd1306ControlCommand : UInt8 := 0x00

def ssd1306ControlData : UInt8 := 0x40

def ssd1306PageCount : UInt8 := 8

def ssd1306Width : UInt8 := 128

def ssd1306CellWidth : UInt8 := 6

def ssd1306I2cTimeout : ℕ := 200000

/-- The static variables. -/
structure Ssd1306 where
  /-- Address of the controller. -/
  i2c : UInt32
  address : UInt8

/-- The driver library, with what only this driver uses of it. -/
structure DlI2cController (σ : Type) extends DlI2c σ where
  disableController : Driver σ Unit
  enableController : Driver σ Unit
  flushControllerTXFIFO : Driver σ Unit

namespace Ssd1306

def font5x7 : List (List UInt8) := [
  [0x00, 0x00, 0x00, 0x00, 0x00], [0x00, 0x00, 0x5f, 0x00, 0x00], [0x00, 0x07, 0x00, 0x07, 0x00],
  [0x14, 0x7f, 0x14, 0x7f, 0x14], [0x24, 0x2a, 0x7f, 0x2a, 0x12], [0x23, 0x13, 0x08, 0x64, 0x62],
  [0x36, 0x49, 0x55, 0x22, 0x50], [0x00, 0x05, 0x03, 0x00, 0x00], [0x00, 0x1c, 0x22, 0x41, 0x00],
  [0x00, 0x41, 0x22, 0x1c, 0x00], [0x14, 0x08, 0x3e, 0x08, 0x14], [0x08, 0x08, 0x3e, 0x08, 0x08],
  [0x00, 0x50, 0x30, 0x00, 0x00], [0x08, 0x08, 0x08, 0x08, 0x08], [0x00, 0x60, 0x60, 0x00, 0x00],
  [0x20, 0x10, 0x08, 0x04, 0x02], [0x3e, 0x51, 0x49, 0x45, 0x3e], [0x00, 0x42, 0x7f, 0x40, 0x00],
  [0x42, 0x61, 0x51, 0x49, 0x46], [0x21, 0x41, 0x45, 0x4b, 0x31], [0x18, 0x14, 0x12, 0x7f, 0x10],
  [0x27, 0x45, 0x45, 0x45, 0x39], [0x3c, 0x4a, 0x49, 0x49, 0x30], [0x01, 0x71, 0x09, 0x05, 0x03],
  [0x36, 0x49, 0x49, 0x49, 0x36], [0x06, 0x49, 0x49, 0x29, 0x1e], [0x00, 0x36, 0x36, 0x00, 0x00],
  [0x00, 0x56, 0x36, 0x00, 0x00], [0x08, 0x14, 0x22, 0x41, 0x00], [0x14, 0x14, 0x14, 0x14, 0x14],
  [0x00, 0x41, 0x22, 0x14, 0x08], [0x02, 0x01, 0x51, 0x09, 0x06], [0x32, 0x49, 0x79, 0x41, 0x3e],
  [0x7e, 0x11, 0x11, 0x11, 0x7e], [0x7f, 0x49, 0x49, 0x49, 0x36], [0x3e, 0x41, 0x41, 0x41, 0x22],
  [0x7f, 0x41, 0x41, 0x22, 0x1c], [0x7f, 0x49, 0x49, 0x49, 0x41], [0x7f, 0x09, 0x09, 0x09, 0x01],
  [0x3e, 0x41, 0x49, 0x49, 0x7a], [0x7f, 0x08, 0x08, 0x08, 0x7f], [0x00, 0x41, 0x7f, 0x41, 0x00],
  [0x20, 0x40, 0x41, 0x3f, 0x01], [0x7f, 0x08, 0x14, 0x22, 0x41], [0x7f, 0x40, 0x40, 0x40, 0x40],
  [0x7f, 0x02, 0x0c, 0x02, 0x7f], [0x7f, 0x04, 0x08, 0x10, 0x7f], [0x3e, 0x41, 0x41, 0x41, 0x3e],
  [0x7f, 0x09, 0x09, 0x09, 0x06], [0x3e, 0x41, 0x51, 0x21, 0x5e], [0x7f, 0x09, 0x19, 0x29, 0x46],
  [0x46, 0x49, 0x49, 0x49, 0x31], [0x01, 0x01, 0x7f, 0x01, 0x01], [0x3f, 0x40, 0x40, 0x40, 0x3f],
  [0x1f, 0x20, 0x40, 0x20, 0x1f], [0x3f, 0x40, 0x38, 0x40, 0x3f], [0x63, 0x14, 0x08, 0x14, 0x63],
  [0x07, 0x08, 0x70, 0x08, 0x07], [0x61, 0x51, 0x49, 0x45, 0x43], [0x00, 0x7f, 0x41, 0x41, 0x00],
  [0x02, 0x04, 0x08, 0x10, 0x20], [0x00, 0x41, 0x41, 0x7f, 0x00], [0x04, 0x02, 0x01, 0x02, 0x04],
  [0x40, 0x40, 0x40, 0x40, 0x40], [0x00, 0x01, 0x02, 0x04, 0x00], [0x20, 0x54, 0x54, 0x54, 0x78],
  [0x7f, 0x48, 0x44, 0x44, 0x38], [0x38, 0x44, 0x44, 0x44, 0x20], [0x38, 0x44, 0x44, 0x48, 0x7f],
  [0x38, 0x54, 0x54, 0x54, 0x18], [0x08, 0x7e, 0x09, 0x01, 0x02], [0x0c, 0x52, 0x52, 0x52, 0x3e],
  [0x7f, 0x08, 0x04, 0x04, 0x78], [0x00, 0x44, 0x7d, 0x40, 0x00], [0x20, 0x40, 0x44, 0x3d, 0x00],
  [0x7f, 0x10, 0x28, 0x44, 0x00], [0x00, 0x41, 0x7f, 0x40, 0x00], [0x7c, 0x04, 0x18, 0x04, 0x78],
  [0x7c, 0x08, 0x04, 0x04, 0x78], [0x38, 0x44, 0x44, 0x44, 0x38], [0x7c, 0x14, 0x14, 0x14, 0x08],
  [0x08, 0x14, 0x14, 0x18, 0x7c], [0x7c, 0x08, 0x04, 0x04, 0x08], [0x48, 0x54, 0x54, 0x54, 0x20],
  [0x04, 0x3f, 0x44, 0x40, 0x20], [0x3c, 0x40, 0x40, 0x20, 0x7c], [0x1c, 0x20, 0x40, 0x20, 0x1c],
  [0x3c, 0x40, 0x30, 0x40, 0x3c], [0x44, 0x28, 0x10, 0x28, 0x44], [0x0c, 0x50, 0x50, 0x50, 0x3c],
  [0x44, 0x64, 0x54, 0x4c, 0x44], [0x00, 0x08, 0x36, 0x41, 0x00], [0x00, 0x00, 0x7f, 0x00, 0x00],
  [0x00, 0x41, 0x36, 0x08, 0x00], [0x10, 0x08, 0x08, 0x10, 0x08], [0x00, 0x00, 0x00, 0x00, 0x00]
]

variable {σ : Type} (dl : DlI2cController σ) (d : Ssd1306)

def resetControllerTransfer : Driver σ Unit := do
  dl.disableController
  dl.resetControllerTransfer
  dl.enableController

def busy : Driver σ Bool := return (← dl.getControllerStatus) &&& dl.statusBusy ≠ 0

def notIdle : Driver σ Bool := return (← dl.getControllerStatus) &&& dl.statusIdle = 0

/-- Both loops give up after the same number of readings. -/
def waitUntilIdle : Driver σ Bool := do
  if ← poll (busy dl) (ssd1306I2cTimeout - 1) then
    if ← poll (notIdle dl) (ssd1306I2cTimeout - 1) then
      return (← dl.getControllerStatus) &&& dl.statusError = 0
    else return false
  else return false

/-- Between the start and the second wait the code lets some cycles pass. -/
def writePacket (packet : List UInt8) : Driver σ Bool :=
  if d.i2c = 0 ∨ packet = [] then return false
  else do
    if ← waitUntilIdle dl then
      dl.flushControllerTXFIFO
      if (← dl.fillControllerTXFIFO packet) ≠ packet.length then return false
      else do
        dl.startControllerTransfer d.address (.ofNat packet.length)
        if ← waitUntilIdle dl then return true
        else do
          resetControllerTransfer dl
          return false
    else do
      resetControllerTransfer dl
      return false

/-- How many bytes the next packet takes. -/
def chunk (length offset : UInt8) : UInt8 :=
  if length - offset > 7 then 7 else length - offset

theorem toNat_chunk {length offset : UInt8} (h : offset < length) :
    (chunk length offset).toNat = min (length.toNat - offset.toNat) 7 := by
  have hsub := toNat_sub8 (UInt8.lt_iff_toNat_lt.mp h).le
  have hgt : length - offset > 7 ↔ 7 < length.toNat - offset.toNat := by
    rw [gt_iff_lt, UInt8.lt_iff_toNat_lt, hsub]
    rfl
  rw [chunk]
  by_cases hlong : length - offset > 7
  · rw [if_pos hlong, Nat.min_eq_right (hgt.mp hlong).le]
    rfl
  · rw [if_neg hlong, hsub, Nat.min_eq_left (not_lt.mp (mt hgt.mpr hlong))]

/-- The offset does not go around. -/
theorem toNat_add_chunk {length offset : UInt8} (h : offset < length) :
    (offset + chunk length offset).toNat =
      offset.toNat + min (length.toNat - offset.toNat) 7 := by
  have hlt := UInt8.lt_iff_toNat_lt.mp h
  have hlength : length.toNat < 2 ^ 8 := length.toNat_lt
  rw [toNat_add8 (by rw [toNat_chunk h]; omega), toNat_chunk h]

/-- The loop of `write_command_list` and `write_data_list`. -/
def writeList (control : UInt8) (bytes : List UInt8) (length offset : UInt8) : Driver σ Bool :=
  if offset < length then do
    let piece := (List.range (chunk length offset).toNat).map fun i =>
      bytes.getD (offset.toNat + i) 0
    if ← writePacket dl d (control :: piece) then
      writeList control bytes length (offset + chunk length offset)
    else return false
  else return true
termination_by length.toNat - offset.toNat
decreasing_by
  have hlt := UInt8.lt_iff_toNat_lt.mp ‹offset < length›
  rw [toNat_add_chunk ‹offset < length›]
  omega

def writeCommandList (commands : List UInt8) (length : UInt8) : Driver σ Bool :=
  writeList dl d ssd1306ControlCommand commands length 0

def writeDataList (data : List UInt8) (length : UInt8) : Driver σ Bool :=
  writeList dl d ssd1306ControlData data length 0

def setCursor (row col : UInt8) : Driver σ Bool :=
  let column := col * ssd1306CellWidth
  let commands : List UInt8 :=
    [0xB0 + row, 0x00 + (column &&& 0x0F), (0x10 : UInt8) + ((column >>> 4) &&& 0x0F)]
  if row ≥ ssd1306TextRows ∨ col.toNat ≥ ssd1306TextColumns then return false
  else writeCommandList dl d commands 3

/-- A plain `char` is a byte here; as a signed one, the bytes above 127 would be below the
blank instead of above the tilde. -/
def normalizeChar (c : UInt8) : UInt8 :=
  if c < 0x20 ∨ c > 0x7E then 0x3F - 0x20 else c - 0x20

def glyph (c : UInt8) : List UInt8 :=
  (List.range 5).map (fun i => (font5x7.getD (normalizeChar c).toNat []).getD i 0) ++ [0x00]

def writeChar (c : UInt8) : Driver σ Bool := writeDataList dl d (glyph c) 6

/-- The columns of one page, from `col` on. -/
def clearColumns (col : UInt8) : Driver σ Bool :=
  if col < ssd1306Width then do
    let count := if ssd1306Width - col > 7 then 7 else ssd1306Width - col
    if ← writeDataList dl d [0, 0, 0, 0, 0, 0, 0] count then clearColumns (col + 7)
    else return false
  else return true
termination_by 128 - col.toNat
decreasing_by
  have hlt : col.toNat < 128 := UInt8.lt_iff_toNat_lt.mp ‹col < ssd1306Width›
  have hnext : (col + 7).toNat = col.toNat + 7 := toNat_add8 (show _ + 7 < 2 ^ 8 by omega)
  omega

/-- The pages from `row` on. -/
def clearRows (row : UInt8) : Driver σ Bool :=
  if row < ssd1306PageCount then do
    if ← writeCommandList dl d [0xB0 + row, 0x00, 0x10] 3 then
      if ← clearColumns dl d 0 then clearRows (row + 1) else return false
    else return false
  else return true
termination_by 8 - row.toNat
decreasing_by
  have hlt : row.toNat < 8 := UInt8.lt_iff_toNat_lt.mp ‹row < ssd1306PageCount›
  have hnext : (row + 1).toNat = row.toNat + 1 := toNat_add8 (show _ + 1 < 2 ^ 8 by omega)
  omega

def ssd1306Mspm0Clear : Driver σ Bool := clearRows dl d 0

theorem toNat_add_one (written : UInt8) (h : written.toNat < ssd1306TextColumns) :
    (written + 1).toNat = written.toNat + 1 := by
  have hlt : written.toNat < 21 := h
  exact toNat_add8 (show _ + 1 < 2 ^ 8 by omega)

/-- The loop over the text: whether all was written, and `written`. -/
def writeText (col : UInt8) (text : BytePtr) (written : UInt8) : Driver σ (Bool × UInt8) :=
  if text.bytes written.toNat ≠ 0 ∧ col.toNat + written.toNat < ssd1306TextColumns then do
    if ← writeChar dl d (text.bytes written.toNat) then writeText col text (written + 1)
    else return (false, written)
  else return (true, written)
termination_by ssd1306TextColumns - (col.toNat + written.toNat)
decreasing_by
  rw [toNat_add_one written (by omega)]
  omega

/-- The loop that fills the row with blanks. -/
def padText (col written : UInt8) : Driver σ Bool :=
  if col.toNat + written.toNat < ssd1306TextColumns then do
    if ← writeChar dl d 0x20 then padText col (written + 1) else return false
  else return true
termination_by ssd1306TextColumns - (col.toNat + written.toNat)
decreasing_by
  rw [toNat_add_one written (by omega)]
  omega

def ssd1306Mspm0WriteString (row col : UInt8) (text : BytePtr) : Driver σ Bool :=
  if text.null then return false
  else do
    if ← setCursor dl d row col then return (← writeText dl d col text 0).1
    else return false

def ssd1306Mspm0WriteStringPadded (row col : UInt8) (text : BytePtr) : Driver σ Bool :=
  if text.null then return false
  else do
    if ← setCursor dl d row col then
      let (complete, written) ← writeText dl d col text 0
      if complete then padText dl d col written else return false
    else return false

end Ssd1306

end NuedcFirmware.Modules
