import NuedcFirmware.Platform.I2c
import NuedcFirmware.Platform.Spi
import NuedcFirmware.Platform.Uart
import Mathlib.Data.Nat.Count
import Mathlib.Data.Set.Basic

/-!
How many registers a transfer reads.

The peripherals answer as they like: what register `r` answers when it is read is given
for every number of readings made before. The state that the drivers run on is that
number.

Every wait of the SPI and the I2C driver has a limit but one. Two loops have none: that
of `drain_rx`, which an SPI transfer runs through when it has found the controller idle,
and the wait for the transmitter in `Drv_Uart_WriteBlocking`.
-/

namespace NuedcFirmware.Platform.TransferBound

open NuedcFirmware.Lib

/-- What the registers answer, by the number of readings made before. -/
structure Answers where
  spiBusy : ℕ → Bool
  spiRxEmpty : ℕ → Bool
  spiTxFull : ℕ → Bool
  spiData : ℕ → UInt8
  i2cStatus : ℕ → UInt32
  i2cTxFull : ℕ → Bool
  i2cRxEmpty : ℕ → Bool
  i2cData : ℕ → UInt8
  uartBusy : ℕ → Bool

def read {α : Type} (answers : ℕ → α) : Driver ℕ α := access fun k => (answers k, k + 1)

def write : Driver ℕ Unit := access fun k => ((), k)

/-- The functions of the driver library for I2C that are more than a reading: how they go
about it is left open, up to the number of the registers that they read at most. -/
structure I2cLib where
  statusError : UInt32
  statusIdle : UInt32
  statusBusy : UInt32
  statusBusyBus : UInt32
  reset : Driver ℕ Unit
  fill : (ℕ → Bool) → List UInt8 → Driver ℕ ℕ
  start : UInt8 → UInt16 → Driver ℕ Unit
  updateMSA : UInt8 → Driver ℕ Unit
  updateMCTR : UInt16 → Driver ℕ Unit
  fillReads : ℕ → ℕ
  commandReads : ℕ
  costs_reset : Costs id commandReads reset
  costs_fill : ∀ full data, Costs id (fillReads data.length) (fill full data)
  costs_start : ∀ addr len, Costs id commandReads (start addr len)
  costs_updateMSA : ∀ addr, Costs id commandReads (updateMSA addr)
  costs_updateMCTR : ∀ len, Costs id commandReads (updateMCTR len)

namespace Answers

def spi (a : Answers) : DlSpi ℕ where
  isBusy := read a.spiBusy
  isRXFIFOEmpty := read a.spiRxEmpty
  isTXFIFOFull := read a.spiTxFull
  receiveData8 := read a.spiData
  transmitData8 _ := write
  clearPins := write
  setPins := write

def i2c (a : Answers) (lib : I2cLib) : DlI2c ℕ where
  statusError := lib.statusError
  statusIdle := lib.statusIdle
  statusBusy := lib.statusBusy
  statusBusyBus := lib.statusBusyBus
  getControllerStatus := read a.i2cStatus
  isControllerRXFIFOEmpty := read a.i2cRxEmpty
  receiveControllerData := read a.i2cData
  resetControllerTransfer := lib.reset
  fillControllerTXFIFO := lib.fill a.i2cTxFull
  startControllerTransfer := lib.start
  updateMSA := lib.updateMSA
  updateMCTR := lib.updateMCTR

def uart (a : Answers) : DlUart ℕ where
  isBusy := read a.uartBusy
  transmitData _ := write

end Answers

/-- A call of one of the seven functions. -/
inductive Transfer
  | spiWriteReg8 (bus : Option DrvSpiBus) (reg : UInt8) (data : BytePtr) (len : UInt32)
  | spiReadReg8 (bus : Option DrvSpiBus) (reg : UInt8) (data : BytePtr) (len : UInt32)
  | i2cWaitIdle (bus : Option DrvI2cBus)
  | i2cWrite (bus : Option DrvI2cBus) (addr : UInt8) (data : BytePtr) (len : UInt16)
  | i2cWriteReg8 (bus : Option DrvI2cBus) (addr reg : UInt8) (data : BytePtr) (len : UInt16)
  | i2cReadReg8 (bus : Option DrvI2cBus) (addr reg : UInt8) (data : BytePtr) (len : UInt16)
  | uartWriteBlocking (uart : Option DrvUartPort) (data : BytePtr) (len : UInt16)

namespace Transfer

open DrvSpi DrvI2c DrvUart

def run (lib : I2cLib) (a : Answers) (fuel : ℕ) : Transfer → Driver ℕ Unit
  | spiWriteReg8 bus reg data len => do let _ ← drvSpiWriteReg8 a.spi fuel bus reg data len
  | spiReadReg8 bus reg data len => do let _ ← drvSpiReadReg8 a.spi fuel bus reg data len
  | i2cWaitIdle bus => do let _ ← drvI2cWaitIdle (a.i2c lib) bus
  | i2cWrite bus addr data len => do let _ ← drvI2cWrite (a.i2c lib) bus addr data len
  | i2cWriteReg8 bus addr reg data len => do
      let _ ← drvI2cWriteReg8 (a.i2c lib) bus addr reg data len
  | i2cReadReg8 bus addr reg data len => do
      let _ ← drvI2cReadReg8 (a.i2c lib) bus addr reg data len
  | uartWriteBlocking uart data len => drvUartWriteBlocking a.uart fuel uart data len

def len : Transfer → ℕ
  | spiWriteReg8 _ _ _ len | spiReadReg8 _ _ _ len => len.toNat
  | i2cWaitIdle _ => 0
  | i2cWrite _ _ _ len | i2cWriteReg8 _ _ _ _ len | i2cReadReg8 _ _ _ _ len => len.toNat
  | uartWriteBlocking _ _ len => len.toNat

def spiLimit (bus : Option DrvSpiBus) : ℕ := bus.elim 0 DrvSpi.waitLimit

def i2cLimit (bus : Option DrvI2cBus) : ℕ := bus.elim 0 fun b => (DrvI2c.waitLimit b).toNat

/-- The limit of its waits, where it has a bus. -/
def limit : Transfer → ℕ
  | spiWriteReg8 bus _ _ _ | spiReadReg8 bus _ _ _ => spiLimit bus
  | i2cWaitIdle bus | i2cWrite bus _ _ _ | i2cWriteReg8 bus _ _ _ _ | i2cReadReg8 bus _ _ _ _ =>
      i2cLimit bus
  | uartWriteBlocking _ _ _ => 0

end Transfer

/-- A call and the answers it gets. -/
structure Input where
  transfer : Transfer
  answers : Answers

/-- The call returns, and has read at most `n` registers. -/
def Input.ReturnsWithin (lib : I2cLib) (n : ℕ) (i : Input) : Prop :=
  ∃ fuel, ∃ r ∈ (i.transfer.run lib i.answers fuel).run 0, r.2 ≤ n

/-- On these inputs the calls return after a number of readings bounded by a function of
their length and limit. -/
def Bounded (lib : I2cLib) (inputs : Set Input) : Prop :=
  ∃ bound : ℕ → ℕ → ℕ, ∀ i ∈ inputs,
    i.ReturnsWithin lib (bound i.transfer.len i.transfer.limit)

/-- Reading `k` is the one that finds the SPI controller idle; from then on every other
reading asks whether its receive FIFO is empty. -/
def SpiDrains (a : Answers) (limit d : ℕ) : Prop :=
  ∀ k ≤ limit, (∀ j < k, a.spiBusy j = true) → a.spiBusy k = false →
    ∃ j < d, a.spiRxEmpty (k + 1 + 2 * j) = true

/-- How many of the first `d` readings would find the transmitter free. -/
def Answers.freeCount (a : Answers) (d : ℕ) : ℕ := Nat.count (fun k => a.uartBusy k = false) d

/-- The loops without a limit find their flag clear in time: that of the SPI receive FIFO
among `d` readings, that of the transmitter, for every byte, among `d` in all. -/
def Input.ClearsWithin (d : ℕ) (i : Input) : Prop :=
  match i.transfer with
  | .spiWriteReg8 bus _ data len | .spiReadReg8 bus _ data len =>
      ∀ b ∈ bus, DrvSpi.valid b data len = true → SpiDrains i.answers (DrvSpi.waitLimit b) d
  | .uartWriteBlocking uart data len =>
      ∀ port ∈ uart, port.inst ≠ 0 → data.null = false → len.toNat ≤ i.answers.freeCount d
  | _ => True

/-! ### Readings -/

theorem costs_read {α : Type} (answers : ℕ → α) : Costs id 1 (read answers) := by
  intro k
  simp [read]

theorem costs_write : Costs id 0 write := by
  intro k
  simp [write]

section Spi

open DrvSpi

variable {a : Answers} {bus : DrvSpiBus}

theorem costs_waitNotBusy : Costs id (waitLimit bus + 1) (waitNotBusy a.spi bus) := by
  have h := costs_poll (costs_read a.spiBusy) (waitLimit bus)
  rwa [Nat.mul_one] at h

/-- Two waits and the byte itself. -/
theorem costs_transfer8 (tx : UInt8) :
    Costs id (2 * (waitLimit bus + 1) + 1) (transfer8 a.spi bus tx) := by
  have hfull := costs_poll (costs_read a.spiTxFull) (waitLimit bus)
  have hempty := costs_poll (costs_read a.spiRxEmpty) (waitLimit bus)
  refine (hfull.bind (m := waitLimit bus + 2) fun ok => ?_).mono (by omega)
  cases ok with
  | false => exact (costs_pure _).mono (Nat.zero_le _)
  | true =>
      refine (costs_write.bind (m := waitLimit bus + 2) fun _ => ?_).mono (by omega)
      refine (hempty.bind (m := 1) fun ok => ?_).mono (by omega)
      cases ok with
      | false => exact (costs_pure _).mono (Nat.zero_le _)
      | true => exact (costs_read a.spiData).bind fun b => costs_pure (some b)

theorem costs_transferBytes (tx : ℕ → UInt8) (n i : ℕ) (data : ℕ → UInt8) :
    Costs id (n * (2 * (waitLimit bus + 1) + 1)) (transferBytes a.spi bus tx n i data) := by
  induction n generalizing i data with
  | zero => exact (costs_pure _).mono (Nat.zero_le _)
  | succ n ih =>
      rw [Nat.succ_mul, Nat.add_comm]
      refine (costs_transfer8 (tx i)).bind fun r => ?_
      cases r with
      | none => exact (costs_pure _).mono (Nat.zero_le _)
      | some b => exact ih (i + 1) (Function.update data i b)

/-- What is read behind the drain of an SPI transfer. -/
def exchangeReads (len limit : ℕ) : ℕ := (len + 1) * (2 * (limit + 1) + 1) + (limit + 1)

theorem costs_exchangeBytes (command : UInt8) (tx : ℕ → UInt8) (len : UInt32)
    (data : ℕ → UInt8) :
    Costs id (exchangeReads len.toNat (waitLimit bus))
      (exchangeBytes a.spi bus command tx len data) := by
  rw [exchangeReads, Nat.succ_mul, Nat.add_comm (len.toNat * _), Nat.add_assoc]
  refine (costs_transfer8 command).bind fun r => ?_
  cases r with
  | none => exact (costs_pure _).mono (Nat.zero_le _)
  | some b =>
      refine (costs_transferBytes tx len.toNat 0 data).bind fun r => ?_
      cases hr : r.1 with
      | false => simpa [hr] using (costs_pure _).mono (Nat.zero_le _)
      | true => simpa [hr] using costs_waitNotBusy.bind fun ok => costs_pure (ok, r.2)

/-- The drain ends where the FIFO is reported empty in time. -/
theorem ensures_drainRx {s j fuel : ℕ} (hj : j < fuel) (hempty : a.spiRxEmpty (s + 2 * j) = true) :
    Ensures (drainRx a.spi fuel) s fun _ s' => s' ≤ s + 2 * j + 1 := by
  refine ensures_waitClear (I := fun s' => ∃ i ≤ j, s' = s + 2 * i)
    (Q := fun s' => s' ≤ s + 2 * j + 1) (Φ := fun s' => (s + 2 * j - s') / 2) ?_ ⟨0, Nat.zero_le _, rfl⟩ (by omega)
  rintro _ ⟨i, hi, rfl⟩
  simp only [Answers.spi, read, ensures_bind, ensures_access, ensures_pure]
  cases hflag : a.spiRxEmpty (s + 2 * i) with
  | true => simp only [Bool.not_true, Bool.false_eq_true, if_false]; omega
  | false =>
      have hne : i ≠ j := fun h => by simp [h, hempty] at hflag
      simp only [Bool.not_false, if_true]
      exact ⟨⟨i + 1, by omega, by omega⟩, by omega⟩

theorem of_mem_drainRx {s fuel : ℕ} {r : Unit × ℕ} (hr : r ∈ (drainRx a.spi fuel).run s) :
    ∃ j, r.2 = s + 2 * j + 1 ∧ a.spiRxEmpty (s + 2 * j) = true := by
  refine of_mem_waitClear (I := fun s' => ∃ i, s' = s + 2 * i)
    (Q := fun s' => ∃ j, s' = s + 2 * j + 1 ∧ a.spiRxEmpty (s + 2 * j) = true) ?_ ⟨0, rfl⟩ hr
  rintro _ ⟨i, rfl⟩ r hr
  obtain rfl : (!a.spiRxEmpty (s + 2 * i), s + 2 * i + 1) = r := Option.some.inj hr
  cases hflag : a.spiRxEmpty (s + 2 * i) with
  | true => exact ⟨i, rfl, hflag⟩
  | false =>
      rintro r' hr'
      obtain rfl : ((), s + 2 * i + 1 + 1) = r' := Option.some.inj hr'
      exact ⟨i + 1, by omega⟩

/-- The wait for an idle controller ends with the first reading that finds it idle. -/
theorem ensures_waitNotBusy :
    Ensures (waitNotBusy a.spi bus) 0 fun ok s' =>
      s' ≤ waitLimit bus + 1 ∧
        (ok = true → ∃ k, s' = k + 1 ∧ (∀ j < k, a.spiBusy j = true) ∧ a.spiBusy k = false) := by
  have hpoll : Ensures (poll a.spi.isBusy (waitLimit bus)) 0 fun ok s' =>
      if ok then ∃ k, s' = k + 1 ∧ (∀ j < k, a.spiBusy j = true) ∧ a.spiBusy k = false
      else ∀ j < s', a.spiBusy j = true := by
    refine ensures_poll (I := fun s' => ∀ j < s', a.spiBusy j = true)
      (Q := fun s' => ∃ k, s' = k + 1 ∧ (∀ j < k, a.spiBusy j = true) ∧ a.spiBusy k = false)
      ?_ (by simp) _
    intro s' hbusy
    simp only [Answers.spi, read, ensures_access]
    cases hflag : a.spiBusy s' with
    | false => simpa using ⟨hbusy, hflag⟩
    | true =>
        intro j hj
        rcases Nat.lt_succ_iff_lt_or_eq.mp hj with hlt | rfl
        · exact hbusy j hlt
        · exact hflag
  refine (hpoll.and (costs_waitNotBusy 0)).imp fun ok s' h => ⟨?_, fun hok => ?_⟩
  · simpa using h.2.2
  · simpa [hok] using h.1

/-- And it ends so where that reading is within the limit. -/
theorem ensures_poll_read {flag : ℕ → Bool} {k timeout : ℕ} (hset : ∀ j < k, flag j = true)
    (hclear : flag k = false) {s : ℕ} (hs : s ≤ k) (hk : k ≤ s + timeout) :
    Ensures (poll (read flag) timeout) s fun ok s' => ok = true ∧ s' = k + 1 := by
  induction timeout generalizing s with
  | zero =>
      obtain rfl : s = k := by omega
      simp [poll, read, hclear]
  | succ timeout ih =>
      rw [poll, ensures_bind, read, ensures_access]
      rcases Nat.lt_or_eq_of_le hs with hlt | rfl
      · rw [hset s hlt, if_pos rfl]
        exact ih hlt (by omega)
      · simp [hclear]

/-- What an SPI transfer does behind the drain. -/
theorem costs_selected (command : UInt8) (tx : ℕ → UInt8) (len : UInt32) (data : ℕ → UInt8) :
    Costs id (exchangeReads len.toNat (waitLimit bus)) (do
      a.spi.clearPins
      let r ← exchangeBytes a.spi bus command tx len data
      drvSpiDeselect a.spi bus
      return r) := by
  have hdeselect : Costs id 0 (drvSpiDeselect a.spi bus) := by
    rw [drvSpiDeselect]
    split_ifs
    · exact costs_pure _
    · exact costs_write
  refine (costs_write.bind fun _ => ?_).mono (Nat.zero_add _).le
  exact (costs_exchangeBytes command tx len data).bind (m := 0) fun r =>
    hdeselect.bind fun _ => costs_pure r

/-- A transfer of a controller that drains. -/
theorem ensures_transferReg8 {bus : Option DrvSpiBus} {command : UInt8} {tx : ℕ → UInt8}
    {data : BytePtr} {len : UInt32} {d fuel : ℕ}
    (h : ∀ b ∈ bus, valid b data len = true → SpiDrains a (waitLimit b) d) (hd : d ≤ fuel) :
    Ensures (transferReg8 a.spi fuel bus command tx data len) 0 fun _ s' =>
      s' ≤ Transfer.spiLimit bus + 1 +
        (2 * d + exchangeReads len.toNat (Transfer.spiLimit bus)) := by
  cases bus with
  | none => exact ensures_pure.mpr (Nat.zero_le _)
  | some bus =>
      rw [transferReg8]
      by_cases hvalid : valid bus data len = true
      · rw [if_pos hvalid, ensures_bind]
        refine ensures_waitNotBusy.imp fun ok s₁ h₁ => ?_
        have hlimit : Transfer.spiLimit (some bus) = waitLimit bus := rfl
        rw [hlimit]
        cases ok with
        | false => exact ensures_pure.mpr (by omega)
        | true =>
            obtain ⟨k, rfl, hbusy, hidle⟩ := h₁.2 rfl
            obtain ⟨j, hj, hempty⟩ := h bus rfl hvalid k (by omega) hbusy hidle
            rw [if_pos rfl, ensures_bind]
            refine (ensures_drainRx (hj.trans_le hd) hempty).imp fun _ s₂ h₂ => ?_
            refine (costs_selected command tx len data.bytes s₂).imp fun _ s₃ h₃ => ?_
            simp only [id] at h₃
            omega
      · rw [if_neg hvalid]
        exact ensures_pure.mpr (Nat.zero_le _)

/-- A transfer that returns has drained the controller. -/
theorem drains_of_mem {command : UInt8} {tx : ℕ → UInt8} {data : BytePtr} {len : UInt32}
    {fuel n : ℕ} (hvalid : valid bus data len = true) {r : (Bool × (ℕ → UInt8)) × ℕ}
    (hr : r ∈ (transferReg8 a.spi fuel (some bus) command tx data len).run 0) (hn : r.2 ≤ n) :
    SpiDrains a (waitLimit bus) n := by
  intro k hk hbusy hidle
  rw [transferReg8, if_pos hvalid, mem_run_bind] at hr
  obtain ⟨r₁, hr₁, hr⟩ := hr
  obtain ⟨hok, hs₁⟩ := (ensures_poll_read hbusy hidle (Nat.zero_le _) (by omega)).of_mem hr₁
  rw [if_pos hok, hs₁, mem_run_bind] at hr
  obtain ⟨r₂, hr₂, hr⟩ := hr
  obtain ⟨j, hs₂, hempty⟩ := of_mem_drainRx hr₂
  refine ⟨j, ?_, hempty⟩
  have hrest := (costs_selected command tx len data.bytes r₂.2).of_mem hr
  simp only [id] at hrest
  omega

end Spi

section I2c

open DrvI2c Transfer

variable {a : Answers} (lib : I2cLib) {bus : Option DrvI2cBus}

/-- A function that returns 0 or gives up with a reset. -/
theorem costs_fail : Costs id lib.commandReads (fail (a.i2c lib)) :=
  lib.costs_reset.bind fun _ => costs_pure false

def waitIdleReads (limit : ℕ) : ℕ := limit + 1 + lib.commandReads

theorem costs_waitIdle (timeout : ℕ) :
    Costs id (waitIdleReads lib timeout) (waitIdle (a.i2c lib) timeout) := by
  induction timeout with
  | zero => exact (costs_read a.i2cStatus).bind fun _ => costs_fail lib
  | succ timeout ih =>
      have hsum : waitIdleReads lib (timeout + 1) = 1 + waitIdleReads lib timeout := by
        rw [waitIdleReads, waitIdleReads]
        omega
      rw [hsum, waitIdle]
      refine (costs_read a.i2cStatus).bind fun status => ?_
      split_ifs
      · exact (costs_fail lib).mono (Nat.le_add_left ..)
      · exact ih
      · exact (costs_pure _).mono (Nat.zero_le _)

theorem validBus_eq_some {b : DrvI2cBus} (h : validBus bus = some b) : bus = some b := by
  exact (Option.filter_eq_some_iff.mp h).1

theorem costs_drvI2cWaitIdle :
    Costs id (waitIdleReads lib (i2cLimit bus)) (drvI2cWaitIdle (a.i2c lib) bus) := by
  rw [drvI2cWaitIdle]
  cases hbus : validBus bus with
  | none => exact (costs_pure _).mono (Nat.zero_le _)
  | some b =>
      rw [validBus_eq_some hbus]
      exact costs_waitIdle lib _

def writeReads (len limit : ℕ) : ℕ :=
  lib.commandReads + (lib.fillReads len +
    (waitIdleReads lib limit + (lib.commandReads + waitIdleReads lib limit)))

theorem costs_drvI2cWrite (addr : UInt8) (data : BytePtr) (len : UInt16) :
    Costs id (writeReads lib len.toNat (i2cLimit bus))
      (drvI2cWrite (a.i2c lib) bus addr data len) := by
  rw [drvI2cWrite]
  cases hbus : validBus bus with
  | none => exact (costs_pure _).mono (Nat.zero_le _)
  | some b =>
      dsimp only
      split_ifs
      · exact (costs_pure _).mono (Nat.zero_le _)
      · refine lib.costs_reset.bind fun _ => ?_
        have hfill := lib.costs_fill a.i2cTxFull ((List.range len.toNat).map data.bytes)
        rw [List.length_map, List.length_range] at hfill
        refine hfill.bind fun accepted => ?_
        split_ifs
        · refine (costs_fail lib).mono ?_
          rw [waitIdleReads]
          omega
        · refine (costs_drvI2cWaitIdle lib).bind fun ok => ?_
          cases ok with
          | false => exact (costs_pure _).mono (Nat.zero_le _)
          | true => exact (lib.costs_start addr len).bind fun _ => costs_drvI2cWaitIdle lib

theorem costs_drvI2cWriteReg8 (addr reg : UInt8) (data : BytePtr) (len : UInt16) :
    Costs id (writeReads lib (len.toNat + 1) (i2cLimit bus))
      (drvI2cWriteReg8 (a.i2c lib) bus addr reg data len) := by
  rw [drvI2cWriteReg8]
  cases hbus : validBus bus with
  | none => exact (costs_pure _).mono (Nat.zero_le _)
  | some b =>
      dsimp only
      split_ifs with hlen
      · exact (costs_pure _).mono (Nat.zero_le _)
      · have hfits : len.toNat ≤ 7 := by
          rw [not_or, Nat.not_lt, Nat.not_lt] at hlen
          exact hlen.2
        have hnext : (len + 1).toNat = len.toNat + 1 := by
          rw [UInt16.toNat_add, UInt16.toNat_one, Nat.mod_eq_of_lt (by omega)]
        rw [← hnext]
        exact costs_drvI2cWrite lib addr (txBytes reg data) (len + 1)

/-- The status and the FIFO are read in every round, a byte at the end. -/
def byteReads (timeout : ℕ) : ℕ := 2 * (timeout + 1) + 1 + lib.commandReads

theorem costs_nextByte (timeout : ℕ) :
    Costs id (byteReads lib timeout) (nextByte (a.i2c lib) timeout) := by
  have hlost {n : ℕ} (hn : lib.commandReads ≤ n) : Costs id n (do
      (a.i2c lib).resetControllerTransfer
      return (none : Option UInt8)) :=
    (lib.costs_reset.bind fun _ => costs_pure none).mono hn
  have hbyte {n : ℕ} (hn : 1 ≤ n) : Costs id n (do
      return some (← (a.i2c lib).receiveControllerData)) :=
    ((costs_read a.i2cData).bind fun b => costs_pure (some b)).mono hn
  induction timeout with
  | zero =>
      refine ((costs_read a.i2cStatus).bind (m := 2 + lib.commandReads) fun status => ?_).mono ?_
      · split_ifs
        · exact hlost (by omega)
        · refine ((costs_read a.i2cRxEmpty).bind (m := 1 + lib.commandReads) fun empty => ?_).mono
            (by omega)
          cases empty with
          | false => exact hbyte (by omega)
          | true => exact hlost (by omega)
      · rw [byteReads]
        omega
  | succ timeout ih =>
      have hsum : byteReads lib (timeout + 1) = 1 + (1 + byteReads lib timeout) := by
        rw [byteReads, byteReads]
        omega
      have hmore : 1 + lib.commandReads ≤ byteReads lib timeout := by
        rw [byteReads]
        omega
      rw [hsum, nextByte]
      refine (costs_read a.i2cStatus).bind fun status => ?_
      split_ifs
      · exact hlost (by omega)
      · refine (costs_read a.i2cRxEmpty).bind fun empty => ?_
        cases empty with
        | false => exact hbyte (by omega)
        | true => exact ih

theorem byteTimeout_le (b : DrvI2cBus) (n : ℕ) :
    (byteTimeout b n).toNat ≤ (waitLimit b).toNat * (n + 1) := by
  rw [byteTimeout, UInt32.toNat_mul]
  refine (Nat.mod_le _ _).trans (Nat.mul_le_mul_left _ ?_)
  rw [UInt32.toNat_add, UInt32.toNat_one, UInt32.toNat_ofNat']
  exact (Nat.mod_le _ _).trans (Nat.add_le_add_right (Nat.mod_le _ _) 1)

theorem costs_readBytes (b : DrvI2cBus) {len n : ℕ} (hn : n ≤ len) (i : ℕ) (data : ℕ → UInt8) :
    Costs id (n * byteReads lib ((waitLimit b).toNat * (len + 1)))
      (readBytes (a.i2c lib) b n i data) := by
  induction n generalizing i data with
  | zero => exact (costs_pure _).mono (Nat.zero_le _)
  | succ n ih =>
      have htimeout : (byteTimeout b (n + 1)).toNat ≤ (waitLimit b).toNat * (len + 1) :=
        (byteTimeout_le b (n + 1)).trans (Nat.mul_le_mul_left _ (by omega))
      have hbyte : Costs id (byteReads lib ((waitLimit b).toNat * (len + 1)))
          (nextByte (a.i2c lib) (byteTimeout b (n + 1)).toNat) := by
        refine (costs_nextByte lib _).mono ?_
        rw [byteReads, byteReads]
        omega
      rw [Nat.succ_mul, Nat.add_comm]
      refine hbyte.bind fun r => ?_
      cases r with
      | none => exact (costs_pure _).mono (Nat.zero_le _)
      | some byte => exact ih (by omega) (i + 1) (Function.update data i byte)

def readReads (len limit : ℕ) : ℕ :=
  lib.commandReads + (lib.fillReads 1 +
    (waitIdleReads lib limit + (lib.commandReads + (lib.commandReads +
      (len * byteReads lib (limit * (len + 1)) + waitIdleReads lib limit)))))

theorem costs_drvI2cReadReg8 (addr reg : UInt8) (data : BytePtr) (len : UInt16) :
    Costs id (readReads lib len.toNat (i2cLimit bus))
      (drvI2cReadReg8 (a.i2c lib) bus addr reg data len) := by
  rw [drvI2cReadReg8]
  cases hbus : validBus bus with
  | none => exact (costs_pure _).mono (Nat.zero_le _)
  | some b =>
      dsimp only
      split_ifs
      · exact (costs_pure _).mono (Nat.zero_le _)
      · refine lib.costs_reset.bind fun _ => ?_
        refine (lib.costs_fill a.i2cTxFull [reg]).bind fun accepted => ?_
        split_ifs
        · refine ((costs_fail lib).bind (m := 0) fun ok => costs_pure (ok, data.bytes)).mono ?_
          rw [waitIdleReads]
          omega
        · refine (costs_drvI2cWaitIdle lib).bind fun ok => ?_
          cases ok with
          | false => exact (costs_pure _).mono (Nat.zero_le _)
          | true =>
              rw [if_pos rfl, startRegisterRead, bind_assoc]
              refine (lib.costs_updateMSA addr).bind fun _ => ?_
              refine (lib.costs_updateMCTR len).bind fun _ => ?_
              have hlimit : i2cLimit bus = (waitLimit b).toNat := by
                rw [validBus_eq_some hbus]
                rfl
              rw [hlimit]
              refine (costs_readBytes lib b le_rfl 0 data.bytes).bind fun r => ?_
              rw [← hlimit]
              cases hr : r.1 with
              | false => simpa [hr] using (costs_pure _).mono (Nat.zero_le _)
              | true =>
                  simpa [hr] using (costs_drvI2cWaitIdle lib).bind fun ok => costs_pure (ok, r.2)

end I2c

section Uart

open DrvUart

variable {a : Answers}

theorem freeCount_succ (s : ℕ) :
    a.freeCount (s + 1) = if a.uartBusy s then a.freeCount s else a.freeCount s + 1 := by
  rw [Answers.freeCount, Nat.count_succ]
  cases h : a.uartBusy s <;> rfl

/-- A wait that ends has found the transmitter free. -/
theorem of_mem_wait {s fuel : ℕ} {r : Unit × ℕ}
    (hr : r ∈ (waitClear a.uart.isBusy (return ()) fuel).run s) :
    a.freeCount s + 1 ≤ a.freeCount r.2 := by
  refine of_mem_waitClear (I := fun s' => a.freeCount s ≤ a.freeCount s')
    (Q := fun s' => a.freeCount s + 1 ≤ a.freeCount s') ?_ le_rfl hr
  intro s' hs' r hr
  obtain rfl : (a.uartBusy s', s' + 1) = r := Option.some.inj hr
  have hcount := freeCount_succ (a := a) s'
  cases hflag : a.uartBusy s' with
  | false =>
      rw [hflag, if_neg Bool.false_ne_true] at hcount
      simpa [hcount] using hs'
  | true =>
      rintro r' hr'
      obtain rfl : ((), s' + 1) = r' := Option.some.inj hr'
      rw [hflag, if_pos rfl] at hcount
      rwa [hcount]

theorem of_mem_writeBytes {data : ℕ → UInt8} {n i s fuel : ℕ} {r : Unit × ℕ}
    (hr : r ∈ (writeBytes a.uart fuel data n i).run s) :
    a.freeCount s + n ≤ a.freeCount r.2 := by
  induction n generalizing i s with
  | zero =>
      obtain rfl : ((), s) = r := Option.some.inj hr
      exact le_rfl
  | succ n ih =>
      rw [writeBytes, mem_run_bind] at hr
      obtain ⟨r₁, hr₁, hr⟩ := hr
      have hwait := of_mem_wait hr₁
      have hrest : a.freeCount r₁.2 + n ≤ a.freeCount r.2 := ih hr
      omega

/-- A wait ends where a reading up to `d` finds the transmitter free. -/
theorem ensures_wait {s d fuel : ℕ} (hs : s ≤ d) (hfree : a.freeCount s < a.freeCount d)
    (hfuel : d < fuel) :
    Ensures (waitClear a.uart.isBusy (return ()) fuel) s fun _ s' =>
      s' ≤ d ∧ a.freeCount s' = a.freeCount s + 1 := by
  refine ensures_waitClear (I := fun s' => s' ≤ d ∧ a.freeCount s' = a.freeCount s)
    (Q := fun s' => s' ≤ d ∧ a.freeCount s' = a.freeCount s + 1) (Φ := fun s' => d - s')
    ?_ ⟨hs, rfl⟩ (by omega)
  rintro s' ⟨hle, hcount⟩
  have hne : s' ≠ d := fun h => by
    rw [h] at hcount
    omega
  have hsucc := freeCount_succ (a := a) s'
  simp only [Answers.uart, read, ensures_access, ensures_pure]
  cases hflag : a.uartBusy s' with
  | false =>
      rw [hflag, if_neg Bool.false_ne_true, hcount] at hsucc
      exact ⟨by omega, hsucc⟩
  | true =>
      rw [hflag, if_pos rfl, hcount] at hsucc
      exact ⟨⟨by omega, hsucc⟩, by omega⟩

theorem ensures_writeBytes {data : ℕ → UInt8} {n i s d fuel : ℕ} (hs : s ≤ d)
    (hfree : a.freeCount s + n ≤ a.freeCount d) (hfuel : d < fuel) :
    Ensures (writeBytes a.uart fuel data n i) s fun _ s' => s' ≤ d := by
  induction n generalizing i s with
  | zero => exact ensures_pure.mpr hs
  | succ n ih =>
      rw [writeBytes, ensures_bind]
      refine (ensures_wait hs (by omega) hfuel).imp fun _ s₁ h₁ => ?_
      exact ih h₁.1 (by omega)

end Uart

/-! ### All transfers -/

section All

variable (lib : I2cLib)

/-- For all of the functions, where the loops without a limit take `d` readings. -/
def readBound (len limit d : ℕ) : ℕ :=
  limit + 1 + (2 * d + exchangeReads len limit) +
    (waitIdleReads lib limit + (writeReads lib len limit + writeReads lib (len + 1) limit) +
      readReads lib len limit) + d

/-- The result of a function is dropped. -/
theorem ensures_run {α : Type} {p : Driver ℕ α} {n m : ℕ} (h : Ensures p 0 fun _ k => k ≤ n)
    (hnm : n ≤ m) : Ensures (do let _ ← p) 0 fun _ k => k ≤ m := by
  rw [ensures_bind]
  exact h.imp fun _ k hk => ensures_pure.mpr (hk.trans hnm)

/-- Both kinds of SPI transfer make their result of what the transfer gives. -/
theorem ensures_spiReg8 {α : Type} {a : Answers} {bus : Option DrvSpiBus} {command : UInt8}
    {tx : ℕ → UInt8} {data : BytePtr} {len : UInt32} {d : ℕ}
    (h : ∀ b ∈ bus, DrvSpi.valid b data len = true → SpiDrains a (DrvSpi.waitLimit b) d)
    (result : Bool × (ℕ → UInt8) → α) :
    Ensures (do
      let r ← DrvSpi.transferReg8 a.spi (d + 1) bus command tx data len
      return result r) 0 fun _ k => k ≤ readBound lib len.toNat (Transfer.spiLimit bus) d := by
  rw [ensures_bind]
  refine (ensures_transferReg8 h (Nat.le_succ d)).imp fun r k hk => ensures_pure.mpr ?_
  rw [readBound]
  omega

theorem ensures_of_costs {α : Type} {p : Driver ℕ α} {n : ℕ} (h : Costs id n p) :
    Ensures p 0 fun _ k => k ≤ n :=
  (h 0).imp fun _ k hk => by simpa using hk.2

/-- Where the flags clear in time the call returns. -/
theorem returnsWithin_of_clearsWithin {i : Input} {d : ℕ} (h : i.ClearsWithin d) :
    i.ReturnsWithin lib (readBound lib i.transfer.len i.transfer.limit d) := by
  obtain ⟨transfer, a⟩ := i
  suffices hrun : Ensures (transfer.run lib a (d + 1)) 0 fun _ k =>
      k ≤ readBound lib transfer.len transfer.limit d by
    obtain ⟨r, hr, hn⟩ := hrun
    exact ⟨d + 1, r, hr, hn⟩
  cases transfer with
  | spiWriteReg8 bus reg data len => exact ensures_run (ensures_spiReg8 lib h _) le_rfl
  | spiReadReg8 bus reg data len => exact ensures_run (ensures_spiReg8 lib h _) le_rfl
  | i2cWaitIdle bus =>
      refine ensures_run (ensures_of_costs (costs_drvI2cWaitIdle lib)) ?_
      rw [readBound, Transfer.limit]
      omega
  | i2cWrite bus addr data len =>
      refine ensures_run (ensures_of_costs (costs_drvI2cWrite lib addr data len)) ?_
      rw [readBound, Transfer.limit, Transfer.len]
      omega
  | i2cWriteReg8 bus addr reg data len =>
      refine ensures_run (ensures_of_costs (costs_drvI2cWriteReg8 lib addr reg data len)) ?_
      rw [readBound, Transfer.limit, Transfer.len]
      omega
  | i2cReadReg8 bus addr reg data len =>
      refine ensures_run (ensures_of_costs (costs_drvI2cReadReg8 lib addr reg data len)) ?_
      rw [readBound, Transfer.limit, Transfer.len]
      omega
  | uartWriteBlocking uart data len =>
      cases uart with
      | none => exact ensures_pure.mpr (Nat.zero_le _)
      | some port =>
          rw [Transfer.run, DrvUart.drvUartWriteBlocking]
          split_ifs with hport
          · exact ensures_pure.mpr (Nat.zero_le _)
          · rw [not_or, Bool.not_eq_true] at hport
            have hfree : len.toNat ≤ a.freeCount d := h port rfl hport.1 hport.2
            have hnone : a.freeCount 0 = 0 := rfl
            refine (ensures_writeBytes (Nat.zero_le d) (by omega) (Nat.lt_succ_self d)).imp ?_
            intro _ k hk
            rw [readBound]
            omega

/-- A run that makes its result of that of a function ends where the function does. -/
theorem mem_run_result {α β : Type} {p : Driver ℕ α} {result : α → β} {s : ℕ} {r : β × ℕ}
    (hr : r ∈ (show Driver ℕ β from do return result (← p)).run s) :
    ∃ r₁ ∈ p.run s, r.2 = r₁.2 := by
  obtain ⟨r₁, hr₁, hr⟩ := mem_run_bind.mp hr
  obtain rfl : _ = r := Option.some.inj hr
  exact ⟨r₁, hr₁, rfl⟩

/-- Where the call returns the flags have cleared in time. -/
theorem clearsWithin_of_returnsWithin {i : Input} {n : ℕ} (h : i.ReturnsWithin lib n) :
    i.ClearsWithin n := by
  obtain ⟨transfer, a⟩ := i
  obtain ⟨fuel, r, hr, hn⟩ := h
  cases transfer with
  | spiWriteReg8 bus reg data len =>
      rintro bus rfl hvalid
      obtain ⟨r₁, hr₁, hs₁⟩ := mem_run_result hr
      obtain ⟨r₂, hr₂, hs₂⟩ := mem_run_result hr₁
      exact drains_of_mem hvalid hr₂ (by omega)
  | spiReadReg8 bus reg data len =>
      rintro bus rfl hvalid
      obtain ⟨r₁, hr₁, hs₁⟩ := mem_run_result hr
      obtain ⟨r₂, hr₂, hs₂⟩ := mem_run_result hr₁
      exact drains_of_mem hvalid hr₂ (by omega)
  | uartWriteBlocking uart data len =>
      rintro port rfl hinst hnull
      have hport : ¬ (port.inst = 0 ∨ data.null = true) := by simp [hinst, hnull]
      rw [Transfer.run, DrvUart.drvUartWriteBlocking] at hr
      dsimp only at hr
      rw [if_neg hport] at hr
      have hfree := of_mem_writeBytes hr
      exact (Nat.le_add_left ..).trans (hfree.trans (Nat.count_monotone _ hn))
  | _ => trivial

/-- The readings are bounded by a function of length and limit if and only if those of the
two loops without a limit are; the I2C functions meet no condition. -/
theorem bounded_iff (inputs : Set Input) :
    Bounded lib inputs ↔
      ∃ d : ℕ → ℕ → ℕ, ∀ i ∈ inputs, i.ClearsWithin (d i.transfer.len i.transfer.limit) := by
  constructor
  · rintro ⟨bound, hbound⟩
    exact ⟨bound, fun i hi => clearsWithin_of_returnsWithin lib (hbound i hi)⟩
  · rintro ⟨d, hd⟩
    refine ⟨fun len limit => readBound lib len limit (d len limit), fun i hi => ?_⟩
    exact returnsWithin_of_clearsWithin lib (hd i hi)

end All

/-! ### Peripherals that hang -/

/-- Fills the FIFO until it is full; the number of the bytes written is `n` so far. -/
def fillFifo (full : ℕ → Bool) : List UInt8 → ℕ → Driver ℕ ℕ
  | [], n => return n
  | _ :: data, n => do
      if ← read full then return n
      else
        write
        fillFifo full data (n + 1)

theorem costs_fillFifo (full : ℕ → Bool) (data : List UInt8) (n : ℕ) :
    Costs id data.length (fillFifo full data n) := by
  induction data generalizing n with
  | nil => exact costs_pure n
  | cons b data ih =>
      rw [List.length_cons, Nat.add_comm]
      refine (costs_read full).bind fun isFull => ?_
      cases isFull with
      | false => exact (costs_write.bind fun _ => ih (n + 1)).mono (Nat.zero_add _).le
      | true => exact (costs_pure n).mono (Nat.zero_le _)

/-- A library whose commands write one register each, or read it first. -/
def plainLib : I2cLib where
  statusError := 0x02
  statusIdle := 0x20
  statusBusy := 0x01
  statusBusyBus := 0x40
  reset := write
  fill full data := fillFifo full data 0
  start _ _ := read fun _ => ()
  updateMSA _ := read fun _ => ()
  updateMCTR _ := read fun _ => ()
  fillReads n := n
  commandReads := 1
  costs_reset := costs_write.mono (Nat.zero_le 1)
  costs_fill full data := costs_fillFifo full data 0
  costs_start _ _ := costs_read _
  costs_updateMSA _ := costs_read _
  costs_updateMCTR _ := costs_read _

/-- A transmitter that stays busy, and an SPI controller that always has a byte. -/
def stuck : Answers where
  spiBusy _ := false
  spiRxEmpty _ := false
  spiTxFull _ := false
  spiData _ := 0
  i2cStatus _ := 0x20
  i2cTxFull _ := false
  i2cRxEmpty _ := true
  i2cData _ := 0
  uartBusy _ := true

def uartStuck : Input := ⟨.uartWriteBlocking (some ⟨0x40108000⟩) ⟨false, fun _ => 0⟩ 1, stuck⟩

def spiStuck : Input :=
  ⟨.spiReadReg8 (some ⟨0x40468000, 0x400A0000, 2, 0⟩) 0x72 ⟨false, fun _ => 0⟩ 1, stuck⟩

/-- Neither call returns. -/
theorem not_bounded :
    (∀ n, ¬ uartStuck.ReturnsWithin plainLib n) ∧ (∀ n, ¬ spiStuck.ReturnsWithin plainLib n) ∧
      ¬ Bounded plainLib Set.univ := by
  have huart (n : ℕ) : ¬ uartStuck.ReturnsWithin plainLib n := by
    intro h
    have hclears := clearsWithin_of_returnsWithin plainLib h _ rfl (by decide) rfl
    have hcount : stuck.freeCount n = 0 := by simp [Answers.freeCount, stuck]
    exact absurd (hclears.trans hcount.le) (by decide)
  have hspi (n : ℕ) : ¬ spiStuck.ReturnsWithin plainLib n := by
    intro h
    have hclears := clearsWithin_of_returnsWithin plainLib h _ rfl (by decide)
    obtain ⟨j, -, hempty⟩ := hclears 0 (Nat.zero_le _) (by simp) rfl
    exact Bool.false_ne_true hempty
  refine ⟨huart, hspi, ?_⟩
  rintro ⟨bound, hbound⟩
  exact huart _ (hbound uartStuck (Set.mem_univ _))

end NuedcFirmware.Platform.TransferBound
