import NuedcFirmware.Modules.InvImuReports

/-!
`ICM45688_MSPM0_Begin`, with its transfers.

The device is left ready if and only if every transfer was as the driver wants it; then they
are, from the first to the last, those of `beginOut`. A device that gives another name than
the sensor's gets no command but the question (`begin_ready`).
-/

namespace NuedcFirmware.Modules

open NuedcFirmware.Lib

namespace Icm45688

open InvImu

section Begin

variable {σ : Type} (t : InvImuTransport σ)

/-- The ranges, the rates and the filters that `ICM45688_MSPM0_Begin` sets: 16 g, 1000 degrees
per second, 200 Hz, and a quarter of that. -/
def setRanges (uninit : ℕ → ℕ → UInt8) : StatusM σ Unit := do
  orStatus (setAccelFsr t 1#3 (uninit 1 0))
  orStatus (setAccelFrequency t 8#4 (uninit 2 0))
  orStatus (setGyroFsr t 2#4 (uninit 3 0))
  orStatus (setGyroFrequency t 8#4 (uninit 4 0))
  orStatus (setAccelLnBw t 1#3 (uninit 5 0))
  orStatus (setGyroLnBw t 1#3 (uninit 6 0))

/-- From the reset up to the pin of the interrupt. -/
def configure (tdk : InvImuDevice) (uninit : ℕ → ℕ → UInt8) : StatusM σ InvImuDevice := do
  let tdk ← orStatus (softReset t tdk (uninit 0))
  setRanges t uninit
  let tdk ← orStatus (setAccelMode t 3#2 tdk (uninit 7))
  let tdk ← orStatus (setGyroMode t 3#2 tdk (uninit 8))
  orStatus (writeReg1 t int1Config0 (setBits 2 1#1 0))
  orStatus (writeReg1 t int1Config1 0)
  orStatus (setPinConfigInt t .int1 { intPolarity := 1, intMode := 1, intDrive := 0 } (uninit 9 0))
  return tdk

/-- The transfers of `ICM45688_MSPM0_Begin`; what its uninitialised variables hold is given by
the call and the variable. The name of the device is kept in no other place here. -/
def beginTransfers (tdk : InvImuDevice) (uninit : ℕ → ℕ → UInt8) : Driver σ (InvImuDevice × ℤ) :=
  returnStatus do
    t.sleepUs 3000
    orStatus (writeReg1 t driveConfig0 (setBits 1 2#3 (uninit 10 0)))
    if (← get) ≠ 0 then return tdk
    else do
      t.sleepUs 2
      let who ← orStatus (getWhoAmI t 0)
      if (← get) ≠ 0 ∨ who ≠ invImuWhoami then
        set invImuError
        return tdk
      else do
        let tdk ← configure t tdk uninit
        if (← get) ≠ 0 then return tdk
        else do
          t.sleepUs 70000
          let _ ← orStatus (getIntStatus t .int1 (uninit 11))
          return tdk

/-- `ICM45688_MSPM0_Begin`. -/
def beginDevice {F : Type} [CMath F] (dev : Icm45688 F) (tdk : InvImuDevice)
    (uninit : ℕ → ℕ → UInt8) : Driver σ ((Icm45688 F × InvImuDevice) × ℤ) := do
  let r ← beginTransfers t tdk uninit
  return ((dev.begin r.2, r.1), r.2)

end Begin

/-! ### What is sent -/

/-- The bytes that the device answers while the ranges are set. -/
structure RangesAnswered where
  accelFsr : UInt8
  accelOdr : UInt8
  gyroFsr : UInt8
  gyroOdr : UInt8
  accelBw : UInt8
  gyroBw : UInt8

/-- The bytes that the device answers. -/
structure Answered extends RangesAnswered where
  intf : UInt8
  drive : UInt8
  sreg : UInt8
  resetStatus : UInt8
  accelSreg : UInt8
  accelMode : UInt8
  gyroSreg : UInt8
  gyroMode : UInt8
  pin : UInt8
  status₀ : UInt8
  status₁ : UInt8

/-- High, latched, push-pull. -/
def int1Pin : InvImuIntPinConfig := { intPolarity := 1, intMode := 1, intDrive := 0 }

def rangesOut (a : RangesAnswered) : List Transfer :=
  updateOut accelConfig0 (setBits 4 1#3) a.accelFsr ++
    (updateOut accelConfig0 (setBits 0 8#4) a.accelOdr ++
    (updateOut gyroConfig0 (setBits 4 2#4) a.gyroFsr ++
    (updateOut gyroConfig0 (setBits 0 8#4) a.gyroOdr ++
    (updateOut ipregSys2Reg131 (setBits 0 1#3) a.accelBw ++
    updateOut ipregSys1Reg172 (setBits 0 1#3) a.gyroBw))))

def configureOut (a : Answered) : List Transfer :=
  resetOut a.intf a.drive a.sreg a.resetStatus ++ (rangesOut a.toRangesAnswered ++
    ((readOut sregCtrl a.accelSreg ++ updateOut pwrMgmt0 (setBits 0 3#2) a.accelMode) ++
    ((readOut sregCtrl a.gyroSreg ++ updateOut pwrMgmt0 (setBits 2 3#2) a.gyroMode) ++
    (writeOut int1Config0 (setBits 2 1#1 0) ++
    (writeOut int1Config1 0 ++ updateOut int1Config2 (pinConfig int1Pin) a.pin)))))

/-- The strength of the lines, and the question for the name. -/
def askOut (slew who : UInt8) : List Transfer :=
  writeOut driveConfig0 (setBits 1 2#3 slew) ++ readOut whoAmI who

theorem length_askOut (slew who : UInt8) : (askOut slew who).length = 2 := rfl

def beginOut (slew : UInt8) (a : Answered) : List Transfer :=
  askOut slew invImuWhoami ++
    (configureOut a ++ [.read int1Status0.toUInt8 [a.status₀, a.status₁] true])

/-- The driver's record once the sensor is set up. -/
def deviceAfter (tdk : InvImuDevice) (a : Answered) : InvImuDevice :=
  withEndianness { tdk with fifoFrameSize := 0 } a.gyroSreg

section Traced

variable {σ : Type} {t : TracedTransport σ}

theorem setRanges_accounts (uninit : ℕ → ℕ → UInt8) :
    Accounts t.log Transfer.AsExpected (setRanges t.toInvImuTransport uninit) fun _ out =>
      ∃ a, out = rangesOut a := by
  have hfield (reg : UInt32) (hreg : Accessible reg) (hplain : Plain reg.toUInt8) {w : ℕ} (lo : ℕ)
      (v : BitVec w) (b : UInt8) := (updateField_reports (t := t) hreg hplain lo v b).accounts
  refine ((hfield accelConfig0 (by decide) (by decide) 4 1#3 (uninit 1 0)).bind fun _ =>
    (hfield accelConfig0 (by decide) (by decide) 0 8#4 (uninit 2 0)).bind fun _ =>
    (hfield gyroConfig0 (by decide) (by decide) 4 2#4 (uninit 3 0)).bind fun _ =>
    (hfield gyroConfig0 (by decide) (by decide) 0 8#4 (uninit 4 0)).bind fun _ =>
    (hfield ipregSys2Reg131 (by decide) (by decide) 0 1#3 (uninit 5 0)).bind fun _ =>
    hfield ipregSys1Reg172 (by decide) (by decide) 0 1#3 (uninit 6 0)).imp ?_
  rintro _ _ ⟨_, _, _, rfl, ⟨accelFsr, rfl⟩, _, _, _, rfl, ⟨accelOdr, rfl⟩, _, _, _, rfl,
    ⟨gyroFsr, rfl⟩, _, _, _, rfl, ⟨gyroOdr, rfl⟩, _, _, _, rfl, ⟨accelBw, rfl⟩, gyroBw, rfl⟩
  exact ⟨⟨accelFsr, accelOdr, gyroFsr, gyroOdr, accelBw, gyroBw⟩, rfl⟩

theorem configure_accounts (tdk : InvImuDevice) (uninit : ℕ → ℕ → UInt8) :
    Accounts t.log Transfer.AsExpected (configure t.toInvImuTransport tdk uninit) fun tdk' out =>
      ∃ a, getBits 7 1 a.resetStatus = 1 ∧ out = configureOut a ∧ tdk' = deviceAfter tdk a := by
  have hwrite (reg : UInt32) (hreg : Accessible reg) (b : UInt8) :=
    (writeReg1_reports (t := t) hreg b).accounts
  refine ((softReset_reports tdk (uninit 0)).accounts.bind fun tdk₁ =>
    (setRanges_accounts uninit).bind fun _ =>
    (setMode_reports 0 3#2 tdk₁ (uninit 7)).accounts.bind fun tdk₂ =>
    (setMode_reports 2 3#2 tdk₂ (uninit 8)).accounts.bind fun tdk₃ =>
    (hwrite int1Config0 (by decide) (setBits 2 1#1 0)).bind fun _ =>
    (hwrite int1Config1 (by decide) 0).bind fun _ =>
    (setPinConfigInt_reports int1Pin (uninit 9 0)).accounts.bind fun _ =>
    accounts_pure tdk₃).imp ?_
  rintro _ _ ⟨_, _, _, rfl, ⟨intf, drive, sreg, resetStatus, rfl, hreset, rfl⟩,
    _, _, _, rfl, ⟨a, rfl⟩, _, _, _, rfl, ⟨accelSreg, accelMode, rfl, rfl⟩, _, _, _, rfl,
    ⟨gyroSreg, gyroMode, rfl, rfl⟩, _, _, _, rfl, rfl, _, _, _, rfl, rfl, _, _, _, rfl,
    ⟨pin, rfl⟩, rfl, rfl⟩
  refine ⟨⟨a, intf, drive, sreg, resetStatus, accelSreg, accelMode, gyroSreg, gyroMode, pin, 0, 0⟩,
    hreset, ?_, rfl⟩
  rw [List.append_nil]
  rfl

/-- What follows the question for the name, where it was answered well. -/
theorem finish_accounts (tdk : InvImuDevice) (uninit : ℕ → ℕ → UInt8) :
    Accounts t.log Transfer.AsExpected
      (do
        let tdk ← configure t.toInvImuTransport tdk uninit
        if (← get) ≠ 0 then return tdk
        else do
          t.sleepUs 70000
          let _ ← orStatus (getIntStatus t.toInvImuTransport .int1 (uninit 11))
          return tdk)
      fun tdk' out => ∃ a, getBits 7 1 a.resetStatus = 1 ∧
        out = configureOut a ++ [.read int1Status0.toUInt8 [a.status₀, a.status₁] true] ∧
        tdk' = deviceAfter tdk a := by
  have hsleep : Accounts t.log Transfer.AsExpected (liftM (t.sleepUs 70000)) fun _ out => out = [] :=
    accounts_lift (t.log_sleepUs 70000)
  have hread (tdk' : InvImuDevice) :=
    hsleep.bind fun _ =>
      (getIntStatus_reports (t := t) (uninit 11)).accounts.bind fun _ => accounts_pure tdk'
  refine ((configure_accounts tdk uninit).bind fun tdk' => (hread tdk').leave tdk').imp ?_
  rintro _ _ ⟨_, _, _, rfl, ⟨a, hreset, rfl, rfl⟩, _, _, _, rfl, rfl, _, _, _, rfl,
    ⟨b₀, b₁, rfl, -⟩, rfl, rfl⟩
  exact ⟨{ a with status₀ := b₀, status₁ := b₁ }, hreset, rfl, rfl⟩

theorem getWhoAmI_eq (hspi : t.serifType = uiSpi4) (who : UInt8) :
    getWhoAmI t.toInvImuTransport who = readReg1 t.toInvImuTransport whoAmI who := by
  have hne (r : UInt8 × ℤ) : ¬(t.serifType = uiI2c ∧ r.2 ≠ 0) := by
    rw [hspi]
    exact fun h => absurd h.1 (by decide)
  simp only [getWhoAmI, hne, if_false, bind_pure]

theorem yields_beginTransfers (hspi : t.serifType = uiSpi4) (tdk : InvImuDevice)
    (uninit : ℕ → ℕ → UInt8) (s : σ) :
    Yields (beginTransfers t.toInvImuTransport tdk uninit) s fun r s' => ∃ out,
      t.log s' = t.log s ++ out ∧ (r.2 = 0 ↔ ∀ tr ∈ out, tr.AsExpected) ∧
      (r.2 = 0 → ∃ a, out = beginOut (uninit 10 0) a ∧ r.1 = deviceAfter tdk a) ∧
      ∀ who rest, out = askOut (uninit 10 0) who ++ rest → who ≠ invImuWhoami → rest = [] := by
  rw [beginTransfers, returnStatus, StateT.run_bind, yields_bind, yields_lift]
  refine (t.log_sleepUs 3000 s).imp fun _ s₁ hsleep => ?_
  rw [StateT.run_bind, yields_bind, yields_orStatus]
  refine (yields_writeReg1 (by decide) _ s₁).imp ?_
  rintro r s₂ ⟨ok, hlog, hok⟩
  rw [yields_leave]
  dsimp only
  rw [zero_lor]
  rw [hsleep] at hlog
  by_cases hr : r.2 = 0
  · rw [if_neg (not_not.mpr hr), StateT.run_bind, yields_bind, yields_lift]
    refine (t.log_sleepUs 2 s₂).imp fun _ s₃ hsleep' => ?_
    rw [getWhoAmI_eq hspi, StateT.run_bind, yields_bind, yields_orStatus]
    refine (yields_readReg1 (by decide) 0 s₃).imp ?_
    rintro r' s₄ ⟨ok', hlog', hok'⟩
    have hsent : t.log s₄ = t.log s ++ [.write driveConfig0.toUInt8 [setBits 1 2#3 (uninit 10 0)] ok,
        .read whoAmI.toUInt8 [r'.1] ok'] := by
      rw [hlog', hsleep', hlog, List.append_assoc]
      rfl
    obtain rfl : ok = true := hok.mp hr
    have hasked : (∀ tr ∈ [.write driveConfig0.toUInt8 [setBits 1 2#3 (uninit 10 0)] true,
        .read whoAmI.toUInt8 [r'.1] ok'], Transfer.AsExpected tr) ↔
          r'.2 = 0 ∧ r'.1 = invImuWhoami := by
      simp only [List.forall_mem_cons, List.not_mem_nil, Transfer.AsExpected, hok', true_and]
      refine ⟨fun h => ⟨h.1.1, ?_⟩, fun h => ⟨⟨h.1, fun _ => ?_, ?_⟩, fun _ => False.elim⟩⟩
      · exact List.singleton_inj.mp (h.1.2.1 trivial)
      · rw [h.2]
      · exact fun h' => absurd h' (by decide)
    rw [yields_fail]
    dsimp only
    by_cases hwho : Int.lor r.2 r'.2 ≠ 0 ∨ r'.1 ≠ invImuWhoami
    · rw [if_pos hwho]
      have hno : ¬(r'.2 = 0 ∧ r'.1 = invImuWhoami) := by
        rw [ne_eq, lor_eq_zero_iff, and_iff_right hr] at hwho
        exact fun h => hwho.elim (· h.1) (· h.2)
      refine ⟨_, hsent, ?_, fun h => absurd h (by decide), ?_⟩
      · exact ⟨fun h => absurd h (by decide), fun h => absurd (hasked.mp h) hno⟩
      · rintro who rest hout -
        have hlength := congrArg List.length hout
        rw [List.length_append, length_askOut] at hlength
        exact List.length_eq_zero_iff.mp (Nat.add_left_cancel hlength.symm)
    · rw [if_neg hwho]
      obtain ⟨hstatus, hname⟩ := not_or.mp hwho
      have hstatus : Int.lor r.2 r'.2 = 0 := not_not.mp hstatus
      have hname : r'.1 = invImuWhoami := not_not.mp hname
      rw [hstatus]
      have hok'' : ok' = true := hok'.mp (lor_eq_zero_iff.mp hstatus).2
      refine (finish_accounts tdk uninit 0 s₄).imp ?_
      rintro r'' s₅ ⟨out, hlog'', hall, hout⟩
      refine ⟨_, by rw [hlog'', hsent, List.append_assoc], ?_, fun h => ?_, ?_⟩
      · rw [hall, eq_self, true_and, List.forall_mem_append, hasked,
          and_iff_right ⟨(lor_eq_zero_iff.mp hstatus).2, hname⟩]
      · obtain ⟨a, -, rfl, hdev⟩ := hout h
        refine ⟨a, ?_, hdev⟩
        rw [hname, hok'']
        rfl
      · intro who rest hsame hother
        rw [hname, hok''] at hsame
        cases hsame
        exact absurd rfl hother
  · rw [if_pos hr]
    have hfailed : ok = false := by simpa [hok] using hr
    refine ⟨_, hlog, ?_, fun h => absurd h hr, ?_⟩
    · simp [hok, Transfer.AsExpected]
    · rintro who rest hout -
      rw [hfailed] at hout
      cases hout

end Traced

theorem ready_begin {F : Type} [CMath F] (dev : Icm45688 F) (status : ℤ) :
    (dev.begin status).ready = true ↔ status = invImuOk := by
  rw [begin]
  by_cases h : status = invImuOk
  · simp [h]
  · rw [if_neg h, iff_false_right h]
    exact Bool.false_ne_true

/-- A sensor that gives its name and has done its reset; its other registers are 0. -/
def sensor : TracedTransport (List Transfer) :=
  answering fun _ reg _ =>
    if reg = whoAmI.toUInt8 then invImuWhoami else if reg = int1Status0.toUInt8 then 0x80 else 0

end Icm45688

end NuedcFirmware.Modules
