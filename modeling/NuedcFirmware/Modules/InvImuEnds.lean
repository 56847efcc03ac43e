import NuedcFirmware.Modules.InvImuSample

/-!
The vendor driver returns.

It has no loop that waits: over a bus whose transfers end, with an invariant that they keep,
every function of it ends and keeps the invariant, a begin and the rounds after it at the
end (`ends_session`).
-/

namespace NuedcFirmware.Modules

open NuedcFirmware.Lib

/-- The callbacks of the transport end, and keep `I`. -/
structure InvImuTransport.Returns {σ : Type} (t : InvImuTransport σ) (I : σ → Prop) : Prop where
  readReg : ∀ reg buf len, Ends I (t.readReg reg buf len)
  writeReg : ∀ reg buf len, Ends I (t.writeReg reg buf len)
  sleepUs : ∀ us, Ends I (t.sleepUs us)

variable {σ : Type} {t : InvImuTransport σ} {I : σ → Prop} (h : t.Returns I)

namespace InvImu

include h

theorem ends_readDreg (reg : UInt8) (len : UInt32) (buf : ℕ → UInt8) :
    Ends I (readDreg t reg len buf) :=
  (h.readReg reg buf len).bind fun _ => ends_pure _

theorem ends_writeDreg (reg : UInt8) (len : UInt32) (buf : ℕ → UInt8) :
    Ends I (writeDreg t reg len buf) :=
  (h.writeReg reg buf len).bind fun _ => ends_pure _

theorem ends_readEach (n i : ℕ) (buf : ℕ → UInt8) : EndsBody I (readEach t n i buf) := by
  induction n generalizing i buf with
  | zero => exact endsBody_pure buf
  | succ n ih =>
      exact (h.sleepUs 4).lift.bind fun _ =>
        (ends_readDreg h iregData 1 _).orStatus.bind fun _ => ih _ _

theorem ends_writeEach (buf : ℕ → UInt8) (n i : ℕ) : EndsBody I (writeEach t buf n i) := by
  induction n generalizing i with
  | zero => exact endsBody_pure ()
  | succ n ih =>
      exact (ends_writeDreg h iregData 1 _).orStatus.bind fun _ =>
        (h.sleepUs 4).lift.bind fun _ => ih _

theorem ends_readReg (reg len : UInt32) (buf : ℕ → UInt8) : Ends I (readReg t reg len buf) := by
  refine Ends.ite (EndsBody.returnStatus ?_) (ends_readDreg h _ len buf)
  exact (ends_pure _).orStatus.bind fun _ => endsBody_get.bind fun _ =>
    (endsBody_pure buf).ite ((h.sleepUs 4).lift.bind fun _ =>
      (ends_writeDreg h iregAddr158 2 _).orStatus.bind fun _ => endsBody_get.bind fun _ =>
        (endsBody_pure buf).ite (ends_readEach h _ 0 buf))

theorem ends_writeReg (reg len : UInt32) (buf : ℕ → UInt8) : Ends I (writeReg t reg len buf) := by
  refine Ends.ite (EndsBody.returnStatus ?_) (ends_writeDreg h _ len buf)
  exact (ends_pure _).orStatus.bind fun _ => endsBody_get.bind fun _ =>
    (endsBody_pure ()).ite ((h.sleepUs 4).lift.bind fun _ =>
      (ends_writeDreg h iregAddr158 3 _).orStatus.bind fun _ =>
        (h.sleepUs 4).lift.bind fun _ => endsBody_get.bind fun _ =>
          (endsBody_pure ()).ite (ends_writeEach h buf _ 1))

theorem ends_readReg1 (reg : UInt32) (uninit : UInt8) : Ends I (readReg1 t reg uninit) :=
  (ends_readReg h reg 1 _).bind fun _ => ends_pure _

theorem ends_writeReg1 (reg : UInt32) (b : UInt8) : Ends I (writeReg1 t reg b) :=
  ends_writeReg h reg 1 _

theorem ends_getWhoAmI (who : UInt8) : Ends I (getWhoAmI t who) :=
  (ends_readReg1 h whoAmI who).bind fun _ => (ends_readReg1 h whoAmI _).ite (ends_pure _)

theorem ends_getEndianness (dev : InvImuDevice) (uninit : UInt8) :
    Ends I (getEndianness t dev uninit) :=
  EndsBody.returnStatus <| (ends_readReg1 h sregCtrl uninit).orStatus.bind fun _ =>
    endsBody_get.bind fun _ => (endsBody_pure _).ite (endsBody_pure _)

theorem ends_softReset (dev : InvImuDevice) (uninit : ℕ → UInt8) :
    Ends I (softReset t dev uninit) := by
  refine EndsBody.returnStatus ?_
  refine (ends_readReg1 h intfConfig1Ovrd (uninit 0)).orStatus.bind fun intf => ?_
  refine (ends_readReg1 h driveConfig0 (uninit 1)).orStatus.bind fun drive => ?_
  refine (ends_writeReg1 h regMisc2 _).orStatus.bind fun _ => (h.sleepUs 1000).lift.bind fun _ => ?_
  refine (ends_writeReg1 h driveConfig0 drive).orStatus.bind fun _ => ?_
  refine (ends_writeReg1 h intfConfig1Ovrd intf).orStatus.bind fun _ => ?_
  refine (ends_getEndianness h _ (uninit 2)).orStatus.bind fun dev' => ?_
  refine (ends_readReg1 h int1Status0 (uninit 3)).orStatus.bind fun status => ?_
  exact EndsBody.ite ((endsBody_set invImuError).bind fun _ => endsBody_pure dev')
    (endsBody_pure dev')

/-- A register is read and written back, changed. -/
theorem ends_update (reg : UInt32) (uninit : UInt8) (f : UInt8 → UInt8) :
    EndsBody I (do
      let b ← orStatus (readReg1 t reg uninit)
      orStatus (writeReg1 t reg (f b))) :=
  (ends_readReg1 h reg uninit).orStatus.bind fun _ => (ends_writeReg1 h reg _).orStatus

theorem ends_updateField {w : ℕ} (reg : UInt32) (lo : ℕ) (v : BitVec w) (uninit : UInt8) :
    Ends I (updateField t reg lo v uninit) :=
  (ends_update h reg uninit _).returnStatus

theorem ends_setMode (lo : ℕ) (mode : BitVec 2) (dev : InvImuDevice) (uninit : ℕ → UInt8) :
    Ends I (setMode t lo mode dev uninit) :=
  EndsBody.returnStatus <| (ends_getEndianness h dev (uninit 0)).orStatus.bind fun _ =>
    (ends_readReg1 h pwrMgmt0 (uninit 1)).orStatus.bind fun _ =>
      (ends_writeReg1 h pwrMgmt0 _).orStatus.bind fun _ => endsBody_pure _

theorem ends_setPinConfigInt (num : InvImuIntNum) (conf : InvImuIntPinConfig) (uninit : UInt8) :
    Ends I (setPinConfigInt t num conf uninit) :=
  (ends_update h _ uninit _).returnStatus

theorem ends_getIntStatus (num : InvImuIntNum) (uninit : ℕ → UInt8) :
    Ends I (getIntStatus t num uninit) :=
  EndsBody.returnStatus <| (ends_readReg h _ 2 uninit).orStatus.bind fun _ => endsBody_pure _

theorem ends_getRegisterData (dev : InvImuDevice) (uninit : ℕ → UInt8) :
    Ends I (getRegisterData t dev uninit) :=
  EndsBody.returnStatus <|
    (ends_readReg h accelDataX1Ui sensorDataSize uninit).orStatus.bind fun _ => endsBody_pure _

end InvImu

namespace Icm45688

open InvImu

section Begin

include h

theorem ends_setRanges (uninit : ℕ → ℕ → UInt8) : EndsBody I (setRanges t uninit) := by
  have hfield (reg : UInt32) {w : ℕ} (lo : ℕ) (v : BitVec w) (b : UInt8) :=
    (ends_updateField h reg lo v b).orStatus
  exact (hfield accelConfig0 4 1#3 _).bind fun _ => (hfield accelConfig0 0 8#4 _).bind fun _ =>
    (hfield gyroConfig0 4 2#4 _).bind fun _ => (hfield gyroConfig0 0 8#4 _).bind fun _ =>
      (hfield ipregSys2Reg131 0 1#3 _).bind fun _ => hfield ipregSys1Reg172 0 1#3 _

theorem ends_configure (tdk : InvImuDevice) (uninit : ℕ → ℕ → UInt8) :
    EndsBody I (configure t tdk uninit) :=
  (ends_softReset h tdk _).orStatus.bind fun _ => (ends_setRanges h uninit).bind fun _ =>
    (ends_setMode h 0 3#2 _ _).orStatus.bind fun _ =>
      (ends_setMode h 2 3#2 _ _).orStatus.bind fun _ =>
        (ends_writeReg1 h int1Config0 _).orStatus.bind fun _ =>
          (ends_writeReg1 h int1Config1 _).orStatus.bind fun _ =>
            (ends_setPinConfigInt h .int1 _ _).orStatus.bind fun _ => endsBody_pure _

theorem ends_beginTransfers (tdk : InvImuDevice) (uninit : ℕ → ℕ → UInt8) :
    Ends I (beginTransfers t tdk uninit) := by
  refine EndsBody.returnStatus <| (h.sleepUs 3000).lift.bind fun _ => ?_
  refine (ends_writeReg1 h driveConfig0 _).orStatus.bind fun _ => endsBody_get.bind fun _ => ?_
  refine (endsBody_pure tdk).ite <| (h.sleepUs 2).lift.bind fun _ => ?_
  refine (ends_getWhoAmI h 0).orStatus.bind fun _ => endsBody_get.bind fun _ => ?_
  refine ((endsBody_set invImuError).bind fun _ => endsBody_pure tdk).ite ?_
  refine (ends_configure h tdk uninit).bind fun tdk' => endsBody_get.bind fun _ => ?_
  refine (endsBody_pure tdk').ite <| (h.sleepUs 70000).lift.bind fun _ => ?_
  exact (ends_getIntStatus h .int1 _).orStatus.bind fun _ => endsBody_pure tdk'

end Begin

variable {F : Type} [CMath F]

include h in
theorem ends_sampleRound (tdk : InvImuDevice) (uninit : ℕ → ℕ → UInt8) (dev : Icm45688 F) :
    Ends I (sampleRound t tdk uninit dev) := by
  have hready : Ends I (dataReadyDevice t dev (uninit 12)) :=
    (ends_pure _).ite <| (ends_getIntStatus h .int1 _).bind fun _ => ends_pure _
  have hupdate : Ends I (updateDevice t dev tdk (uninit 13)) :=
    (ends_pure _).ite <| (ends_getRegisterData h tdk _).bind fun _ => ends_pure _
  exact hready.bind fun _ => (hupdate.bind fun _ => ends_pure _).ite (ends_pure dev)

include h in
theorem ends_sampleRounds (tdk : InvImuDevice) (uninit : ℕ → ℕ → UInt8) (n : ℕ)
    (dev : Icm45688 F) : Ends I (sampleRounds t tdk uninit n dev) := by
  induction n generalizing dev with
  | zero => exact ends_pure dev
  | succ n ih => exact (ends_sampleRound h tdk uninit dev).bind fun dev' => ih dev'

include h in
theorem ends_session (dev : Icm45688 F) (tdk : InvImuDevice) (uninit : ℕ → ℕ → UInt8) (n : ℕ) :
    Ends I (session t dev tdk uninit n) :=
  ((ends_beginTransfers h tdk uninit).bind fun _ => ends_pure _).bind fun _ =>
    (ends_sampleRounds h _ uninit n _).bind fun _ => ends_pure _

end Icm45688

end NuedcFirmware.Modules
