import NuedcFirmware.Modules.InvImuDriver
import NuedcFirmware.Modules.InvImuTraffic

/-!
What the functions of the sensor driver send where they report success.

A transfer is as expected where it succeeded and, for the two readings that the driver looks
at, where the right byte came back. From the status 0 a function ends in 0 if and only if all
its transfers are as expected (`Reports`).
-/

namespace NuedcFirmware.Modules

open NuedcFirmware.Lib

/-- What the driver wants of a transfer. -/
def Transfer.AsExpected : Transfer → Prop
  | read reg bytes ok =>
      ok = true ∧ (reg = InvImu.whoAmI.toUInt8 → bytes = [invImuWhoami]) ∧
        (reg = InvImu.int1Status0.toUInt8 → ∀ b, bytes = [b] → InvImu.getBits 7 1 b = 1)
  | write _ _ ok => ok = true

theorem Transfer.ok_of_asExpected {tr : Transfer} (h : tr.AsExpected) : tr.ok = true := by
  cases tr with
  | read reg bytes ok => exact h.1
  | write reg bytes ok => exact h

namespace InvImu

/-- What is sent to read one byte of a register. -/
def readOut (reg : UInt32) (b : UInt8) : List Transfer :=
  if reg > 0xFF then
    [.write iregAddr158 (addressBytes reg) true, .read iregData [b] true]
  else [.read reg.toUInt8 [b] true]

/-- What is sent to write one. -/
def writeOut (reg : UInt32) (b : UInt8) : List Transfer :=
  if reg > 0xFF then [.write iregAddr158 (addressBytes reg ++ [b]) true]
  else [.write reg.toUInt8 [b] true]

/-- A direct register, or one behind `IREG_DATA` that does not stall the device. -/
def Accessible (reg : UInt32) : Prop :=
  reg ≤ 0xFF ∨ (0xFF < reg ∧ reg ≤ 0xFFFF ∧ checkOutOfBoundsMreg reg 1 = 0)

instance (reg : UInt32) : Decidable (Accessible reg) := inferInstanceAs (Decidable (_ ∨ _))

/-- A register whose readings the driver does not look at. -/
def Plain (reg : UInt8) : Prop := reg ≠ whoAmI.toUInt8 ∧ reg ≠ int1Status0.toUInt8

instance (reg : UInt8) : Decidable (Plain reg) := inferInstanceAs (Decidable (_ ∧ _))

theorem asExpected_read {reg : UInt8} (h : Plain reg) (bytes : List UInt8) (ok : Bool) :
    (Transfer.read reg bytes ok).AsExpected ↔ ok = true := by
  simp [Transfer.AsExpected, h.1, h.2]

theorem asExpected_write {reg : UInt8} {bytes : List UInt8} {ok : Bool} :
    (Transfer.write reg bytes ok).AsExpected ↔ ok = true :=
  Iff.rfl

variable {σ : Type} {t : TracedTransport σ}

section Bytes

variable {reg : UInt32} (hreg : Accessible reg)

include hreg in
theorem indirect_of_accessible (habove : ¬reg ≤ 0xFF) :
    (0xFF < reg ∧ reg ≤ 0xFFFF) ∧ checkOutOfBoundsMreg reg 1 = 0 :=
  have h := hreg.resolve_left habove
  ⟨⟨h.1, h.2.1⟩, h.2.2⟩

theorem end_le_of_below (h : reg ≤ 0xFFFF) : reg.toNat + UInt32.toNat 1 ≤ 2 ^ 32 := by
  have := UInt32.le_iff_toNat_le.mp h
  simp only [UInt32.reduceToNat] at this ⊢
  omega

include hreg in
theorem readReg1_reports (hplain : Plain reg.toUInt8) (uninit : UInt8) :
    Reports t.log Transfer.AsExpected (readReg1 t.toInvImuTransport reg uninit) fun b out =>
      out = readOut reg b := by
  intro s
  rw [readReg1, yields_bind]
  by_cases habove : reg ≤ 0xFF
  · rw [readReg, if_neg (UInt32.not_lt.mpr habove)]
    refine (readDreg_reports (asExpected_read hplain) 1 _ s).imp ?_
    rintro r s' ⟨out, hlog, hstatus, hout⟩
    rw [yields_pure]
    refine ⟨out, hlog, hstatus, fun h => ?_⟩
    show out = readOut reg (r.1 0)
    rw [hout h, readOut, if_neg (UInt32.not_lt.mpr habove)]
    rfl
  · obtain ⟨⟨hlo, hhi⟩, hcheck⟩ := indirect_of_accessible hreg habove
    have hin : (RegCall.read reg 1 fun _ => uninit).Indirect :=
      ⟨hlo, hhi, show (0 : UInt32) < 1 by decide, end_le_of_below hhi⟩
    refine (RegCall.yields_accepted t hin s hcheck).imp ?_
    rintro r s' ⟨sent, answers, hlog, ⟨hlength, hbuf⟩, hstatus⟩
    rw [yields_pure]
    refine ⟨_, hlog, ?_, fun h => ?_⟩
    · simp only [hstatus, RegCall.traffic, dataReads, List.forall_mem_cons, List.forall_mem_map,
        asExpected_read (show Plain iregData by decide)]
      rfl
    · obtain ⟨rfl, hok⟩ := hstatus.mp h
      obtain ⟨⟨b, ok⟩, rfl⟩ := List.length_eq_one_iff.mp hlength
      obtain rfl : ok = true := hok _ (List.mem_singleton_self _)
      show _ = readOut reg (r.1 0)
      rw [hbuf, readOut, if_pos hlo]
      rfl

include hreg in
theorem writeReg1_reports (b : UInt8) :
    Reports t.log Transfer.AsExpected (writeReg1 t.toInvImuTransport reg b) fun _ out =>
      out = writeOut reg b := by
  intro s
  by_cases habove : reg ≤ 0xFF
  · rw [writeReg1, writeReg, if_neg (UInt32.not_lt.mpr habove)]
    refine (writeDreg_reports (fun _ _ => asExpected_write) 1 _ s).imp ?_
    rintro r s' ⟨out, hlog, hstatus, hout⟩
    refine ⟨out, hlog, hstatus, fun h => ?_⟩
    rw [hout h, writeOut, if_neg (UInt32.not_lt.mpr habove)]
    rfl
  · obtain ⟨⟨hlo, hhi⟩, hcheck⟩ := indirect_of_accessible hreg habove
    rw [writeReg1, writeReg_eq hlo]
    refine (yields_writeMreg _ s hcheck).imp ?_
    rintro r s' ⟨sent, answers, hlog, hbytes, hstatus⟩
    have hnone : answers = [] := by
      cases sent <;> simpa using hbytes
    rw [hnone] at hlog hstatus
    refine ⟨_, hlog, ?_, fun h => ?_⟩
    · simp [hstatus, dataWrites, Transfer.AsExpected]
    · obtain ⟨rfl, -⟩ := hstatus.mp h
      rw [writeOut, if_pos hlo]
      rfl

theorem yields_readReg1 (hreg : reg ≤ 0xFF) (uninit : UInt8) (s : σ) :
    Yields (readReg1 t.toInvImuTransport reg uninit) s fun r s' => ∃ ok : Bool,
      t.log s' = t.log s ++ [.read reg.toUInt8 [r.1] ok] ∧ (r.2 = 0 ↔ ok = true) := by
  rw [readReg1, yields_bind, readReg, if_neg (UInt32.not_lt.mpr hreg)]
  refine (yields_readDreg reg.toUInt8 1 _ s).imp ?_
  rintro r s' ⟨ok, hlog, hok⟩
  rw [yields_pure]
  exact ⟨ok, hlog, hok⟩

theorem yields_writeReg1 (hreg : reg ≤ 0xFF) (b : UInt8) (s : σ) :
    Yields (writeReg1 t.toInvImuTransport reg b) s fun r s' => ∃ ok : Bool,
      t.log s' = t.log s ++ [.write reg.toUInt8 [b] ok] ∧ (r.2 = 0 ↔ ok = true) := by
  rw [writeReg1, writeReg, if_neg (UInt32.not_lt.mpr hreg)]
  exact yields_writeDreg reg.toUInt8 1 _ s

end Bytes

/-! ### Functions -/

/-- What is sent to change a register. -/
def updateOut (reg : UInt32) (f : UInt8 → UInt8) (b : UInt8) : List Transfer :=
  readOut reg b ++ writeOut reg (f b)

/-- The format of the data as `SREG_CTRL` has it. -/
def withEndianness (dev : InvImuDevice) (sreg : UInt8) : InvImuDevice :=
  { dev with endiannessData := ⟨(getBits 1 1 sreg).setWidth 8⟩ }

theorem getEndianness_reports (dev : InvImuDevice) (uninit : UInt8) :
    Reports t.log Transfer.AsExpected (getEndianness t.toInvImuTransport dev uninit)
      fun dev' out => ∃ b, out = readOut sregCtrl b ∧ dev' = withEndianness dev b := by
  have hsreg : Accessible sregCtrl := by decide
  have hread := (readReg1_reports (t := t) hsreg (by decide) uninit).accounts
  refine ((hread.bind fun b => (accounts_pure (withEndianness dev b)).leave dev).imp ?_).reports
  rintro _ _ ⟨b, _, _, rfl, rfl, rfl, rfl⟩
  exact ⟨b, List.append_nil _, rfl⟩

theorem update_accounts {reg : UInt32} (hreg : Accessible reg) (hplain : Plain reg.toUInt8)
    (f : UInt8 → UInt8) (uninit : UInt8) :
    Accounts t.log Transfer.AsExpected
      (do
        let b ← orStatus (readReg1 t.toInvImuTransport reg uninit)
        orStatus (writeReg1 t.toInvImuTransport reg (f b)))
      fun _ out => ∃ b, out = updateOut reg f b := by
  refine ((readReg1_reports hreg hplain uninit).accounts.bind
    fun b => (writeReg1_reports hreg (f b)).accounts).imp ?_
  rintro _ _ ⟨b, _, _, rfl, rfl, rfl⟩
  exact ⟨b, rfl⟩

theorem updateField_reports {reg : UInt32} (hreg : Accessible reg) (hplain : Plain reg.toUInt8)
    {w : ℕ} (lo : ℕ) (v : BitVec w) (uninit : UInt8) :
    Reports t.log Transfer.AsExpected (updateField t.toInvImuTransport reg lo v uninit)
      fun _ out => ∃ b, out = updateOut reg (setBits lo v) b :=
  (update_accounts hreg hplain _ uninit).reports

theorem setPinConfigInt_reports (conf : InvImuIntPinConfig) (uninit : UInt8) :
    Reports t.log Transfer.AsExpected (setPinConfigInt t.toInvImuTransport .int1 conf uninit)
      fun _ out => ∃ b, out = updateOut int1Config2 (pinConfig conf) b :=
  (update_accounts (by decide) (by decide) _ uninit).reports

theorem setMode_reports (lo : ℕ) (mode : BitVec 2) (dev : InvImuDevice) (uninit : ℕ → UInt8) :
    Reports t.log Transfer.AsExpected (setMode t.toInvImuTransport lo mode dev uninit)
      fun dev' out => ∃ e b, out = readOut sregCtrl e ++ updateOut pwrMgmt0 (setBits lo mode) b ∧
        dev' = withEndianness dev e := by
  have hupdate (dev' : InvImuDevice) : Accounts t.log Transfer.AsExpected
      (do
        let b ← orStatus (readReg1 t.toInvImuTransport pwrMgmt0 (uninit 1))
        orStatus (writeReg1 t.toInvImuTransport pwrMgmt0 (setBits lo mode b))
        return dev')
      fun dev'' out => ∃ b, out = updateOut pwrMgmt0 (setBits lo mode) b ∧ dev'' = dev' := by
    have hpwr : Accessible pwrMgmt0 := by decide
    have h := (update_accounts (t := t) hpwr (by decide) (setBits lo mode) (uninit 1)).bind
      fun _ => accounts_pure dev'
    simp only [bind_assoc] at h
    refine h.imp ?_
    rintro _ _ ⟨_, _, _, rfl, ⟨b, rfl⟩, rfl, rfl⟩
    exact ⟨b, List.append_nil _, rfl⟩
  refine (((getEndianness_reports dev (uninit 0)).accounts.bind hupdate).imp ?_).reports
  rintro _ _ ⟨_, _, _, rfl, ⟨e, rfl, rfl⟩, b, rfl, rfl⟩
  exact ⟨e, b, rfl, rfl⟩

/-- The last step of the reset: the status that reading it clears has to be set. -/
theorem checkReset_accounts (dev : InvImuDevice) (uninit : UInt8) :
    Accounts t.log Transfer.AsExpected
      (do
        let int1Status ← orStatus (readReg1 t.toInvImuTransport int1Status0 uninit)
        if getBits 7 1 int1Status ≠ 1 then set invImuError
        return dev)
      fun dev' out => ∃ b, out = readOut int1Status0 b ∧ getBits 7 1 b = 1 ∧ dev' = dev := by
  intro status s
  rw [StateT.run_bind, yields_bind, yields_orStatus]
  refine (yields_readReg1 (by decide) uninit s).imp ?_
  rintro r s' ⟨ok, hlog, hok⟩
  have hexpected : Transfer.AsExpected (.read int1Status0.toUInt8 [r.1] ok) ↔
      ok = true ∧ getBits 7 1 r.1 = 1 := by
    refine and_congr_right fun _ => ⟨fun h => h.2 rfl _ rfl, fun h => ⟨fun h' => ?_, ?_⟩⟩
    · exact absurd h' (by decide)
    · rintro - b ⟨⟩
      exact h
  by_cases hbit : getBits 7 1 r.1 = 1
  · rw [if_neg (not_not.mpr hbit), StateT.run_pure, yields_pure]
    refine ⟨_, hlog, ?_, fun h => ⟨r.1, ?_, hbit, rfl⟩⟩
    · rw [lor_eq_zero_iff, hok, List.forall_mem_singleton, hexpected, and_iff_left hbit]
    · rw [hok.mp (lor_eq_zero_iff.mp h).2]
      rfl
  · rw [if_pos hbit]
    show Yields (pure (dev, invImuError)) s' _
    rw [yields_pure]
    refine ⟨_, hlog, ?_, fun h => by cases h⟩
    rw [List.forall_mem_singleton, hexpected]
    show invImuError = 0 ↔ _
    exact ⟨fun h => absurd h (by decide), fun h => absurd h.2.2 hbit⟩

/-- What a reset sends: two registers are kept over it. -/
def resetOut (intf drive sreg status : UInt8) : List Transfer :=
  readOut intfConfig1Ovrd intf ++ (readOut driveConfig0 drive ++
    (writeOut regMisc2 (setBits 1 1#1 0) ++ (writeOut driveConfig0 drive ++
      (writeOut intfConfig1Ovrd intf ++ (readOut sregCtrl sreg ++ readOut int1Status0 status)))))

theorem softReset_reports (dev : InvImuDevice) (uninit : ℕ → UInt8) :
    Reports t.log Transfer.AsExpected (softReset t.toInvImuTransport dev uninit) fun dev' out =>
      ∃ intf drive sreg status, out = resetOut intf drive sreg status ∧
        getBits 7 1 status = 1 ∧ dev' = withEndianness { dev with fifoFrameSize := 0 } sreg := by
  have hread (reg : UInt32) (hreg : Accessible reg) (hplain : Plain reg.toUInt8) (b : UInt8) :=
    (readReg1_reports (t := t) hreg hplain b).accounts
  have hwrite (reg : UInt32) (hreg : Accessible reg) (b : UInt8) :=
    (writeReg1_reports (t := t) hreg b).accounts
  refine (((hread intfConfig1Ovrd (by decide) (by decide) (uninit 0)).bind fun intf =>
    (hread driveConfig0 (by decide) (by decide) (uninit 1)).bind fun drive =>
    (hwrite regMisc2 (by decide) (setBits 1 1#1 0)).bind fun _ =>
    (accounts_lift (t.log_sleepUs 1000)).bind fun _ =>
    (hwrite driveConfig0 (by decide) drive).bind fun _ =>
    (hwrite intfConfig1Ovrd (by decide) intf).bind fun _ =>
    (getEndianness_reports { dev with fifoFrameSize := 0 } (uninit 2)).accounts.bind fun dev' =>
    checkReset_accounts dev' (uninit 3)).imp ?_).reports
  rintro _ _ ⟨intf, _, _, rfl, rfl, drive, _, _, rfl, rfl, _, _, _, rfl, rfl, _, _, _, rfl, rfl,
    _, _, _, rfl, rfl, _, _, _, rfl, rfl, _, _, _, rfl, ⟨sreg, rfl, rfl⟩, status, rfl, hbit, rfl⟩
  exact ⟨intf, drive, sreg, status, rfl, hbit, rfl⟩

theorem getIntStatus_reports (uninit : ℕ → UInt8) :
    Reports t.log Transfer.AsExpected (getIntStatus t.toInvImuTransport .int1 uninit) fun it out =>
      ∃ b₀ b₁, out = [.read int1Status0.toUInt8 [b₀, b₁] true] ∧ it = intState b₀ b₁ := by
  have hread : Reports t.log Transfer.AsExpected
      (readReg t.toInvImuTransport int1Status0 2 uninit) fun buf out =>
        out = [.read int1Status0.toUInt8 [buf 0, buf 1] true] := by
    intro s
    rw [readReg, if_neg (by decide)]
    refine (yields_readDreg int1Status0.toUInt8 2 uninit s).imp ?_
    rintro r s' ⟨ok, hlog, hok⟩
    refine ⟨_, hlog, ?_, fun h => by rw [hok.mp h]; rfl⟩
    rw [List.forall_mem_singleton, hok]
    refine ⟨fun h => ⟨h, fun h' => absurd h' (by decide), ?_⟩, fun h => h.1⟩
    rintro - b ⟨⟩
  refine ((hread.accounts.bind fun buf => accounts_pure (intState (buf 0) (buf 1))).imp ?_).reports
  rintro _ _ ⟨buf, _, _, rfl, rfl, rfl, rfl⟩
  exact ⟨buf 0, buf 1, rfl, rfl⟩

end InvImu

end NuedcFirmware.Modules
