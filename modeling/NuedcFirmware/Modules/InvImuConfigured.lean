import NuedcFirmware.Modules.InvImuBringUp
import NuedcFirmware.Modules.RegisterFile

/-!
How a sensor that is a store of registers stands after `ICM45688_MSPM0_Begin`.

A setting reads a register, assigns one of its fields and writes it back, so that over such a
sensor it changes that field and nothing else (`holds_updateOut`). After a begin that reports
success the fields are those of `Configured`, and the driver takes the data in the format that
the sensor has (`begin_configures`).
-/

namespace NuedcFirmware.Modules

open NuedcFirmware.Lib InvImu

namespace RegisterFile

/-- What a register holds, by its address in the driver. -/
def holds (c : RegisterFile) (reg : UInt32) : UInt8 :=
  if reg > 0xFF then c.indirect reg.toNat else c.direct reg.toUInt8

/-- A register that keeps what is written into it. -/
def Kept (reg : UInt32) : Prop :=
  Accessible reg ∧ (reg ≤ 0xFF → reg.toUInt8 ∈ keptRegisters)

instance (reg : UInt32) : Decidable (Kept reg) := inferInstanceAs (Decidable (_ ∧ _))

theorem toUInt8_inj_of_le {a b : UInt32} (ha : a ≤ 0xFF) (hb : b ≤ 0xFF) :
    a.toUInt8 = b.toUInt8 ↔ a = b := by
  have ha' : a.toNat ≤ 0xFF := UInt32.le_iff_toNat_le.mp ha
  have hb' : b.toNat ≤ 0xFF := UInt32.le_iff_toNat_le.mp hb
  rw [← UInt8.toNat_inj, ← UInt32.toNat_inj, UInt32.toNat_toUInt8, UInt32.toNat_toUInt8,
    Nat.mod_eq_of_lt (by omega), Nat.mod_eq_of_lt (by omega)]

/-- Reading changes no register but the pointer. -/
theorem holds_read {c c' : RegisterFile} {reg : UInt8} {bytes : List UInt8} (hdata : reg ≠ iregData)
    (h : Answers c (.read reg bytes true) c') : c'.holds = c.holds := by
  cases h with
  | failed h => cases h
  | readKept h => rfl
  | readOther h hdata => rfl
  | readData => exact absurd rfl hdata

/-- Reading changes no register, and gives what one holds that keeps its content. -/
theorem holds_readOut {c c' : RegisterFile} {reg : UInt32} {b : UInt8} (hreg : Accessible reg)
    (hdata : reg ≤ 0xFF → reg.toUInt8 ≠ iregData) (h : AnswersAll c (readOut reg b) c') :
    c'.holds = c.holds ∧ (Kept reg → b = c.holds reg) := by
  by_cases habove : reg > 0xFF
  · obtain ⟨-, hbelow, -⟩ := hreg.resolve_left (UInt32.not_le.mpr habove)
    have hpointer := word16_addressBytes hbelow
    rw [readOut, if_pos habove] at h
    cases h with
    | cons haddress hrest =>
      cases haddress with
      | failed h => cases h
      | address =>
        cases hrest with
        | cons hread hnil =>
          cases hnil
          cases hread with
          | failed h => cases h
          | readKept h => exact absurd h (by decide)
          | readOther h hdata => exact absurd rfl hdata
          | readData =>
              refine ⟨rfl, fun _ => ?_⟩
              rw [holds, if_pos habove, ← hpointer]
              rfl
  · have hle := UInt32.not_lt.mp habove
    rw [readOut, if_neg habove] at h
    generalize hr : reg.toUInt8 = r at h
    cases h with
    | cons hread hnil =>
      cases hnil
      cases hread with
      | failed h => cases h
      | readKept h => exact ⟨rfl, fun _ => by rw [holds, if_neg habove, hr]⟩
      | readOther h => exact ⟨rfl, fun hkept => absurd (hr ▸ hkept.2 hle) h⟩
      | readData => exact absurd hr (hdata hle)

/-- Writing changes one register. -/
theorem holds_writeOut {c c' : RegisterFile} {reg : UInt32} {b : UInt8} (hkept : Kept reg)
    (h : AnswersAll c (writeOut reg b) c') : c'.holds = Function.update c.holds reg b := by
  by_cases habove : reg > 0xFF
  · obtain ⟨-, hbelow, -⟩ := hkept.1.resolve_left (UInt32.not_le.mpr habove)
    have hpointer := word16_addressBytes hbelow
    rw [writeOut, if_pos habove] at h
    cases h with
    | cons hwrite hnil =>
      cases hnil
      cases hwrite with
      | failed h => cases h
      | addressData =>
          funext r
          rw [Function.update_apply, holds, holds, store]
          dsimp only
          by_cases hr : r > 0xFF
          · rw [if_pos hr, if_pos hr, Function.update_apply]
            have hiff : r.toNat = word16 (reg &&& 0xFF).toUInt8 ((reg &&& 0xFF00) >>> 8).toUInt8 ↔
                r = reg := by
              rw [← UInt32.toNat_inj, ← hpointer]
              rfl
            simp only [hiff]
          · rw [if_neg hr, if_neg hr, if_neg]
            rintro rfl
            exact hr habove
  · have hle := UInt32.not_lt.mp habove
    have hmem := hkept.2 hle
    rw [writeOut, if_neg habove] at h
    generalize hr : reg.toUInt8 = r at h hmem
    cases h with
    | cons hwrite hnil =>
      cases hnil
      cases hwrite with
      | failed h => cases h
      | write haddr hdata hmisc =>
          funext r'
          rw [Function.update_apply, holds, holds]
          dsimp only
          by_cases hr' : r' > 0xFF
          · rw [if_pos hr', if_pos hr', if_neg]
            rintro rfl
            exact habove hr'
          · rw [if_neg hr', if_neg hr', Function.update_apply, ← hr]
            simp only [toUInt8_inj_of_le (UInt32.not_lt.mp hr') hle]
      | writeData => exact absurd hmem (by decide)
      | reset => exact absurd hmem (by decide)

/-- A setting changes one register, from what it holds. -/
theorem holds_updateOut {c c' : RegisterFile} {reg : UInt32} {f : UInt8 → UInt8} {b : UInt8}
    (hkept : Kept reg) (h : AnswersAll c (updateOut reg f b) c') :
    c'.holds = Function.update c.holds reg (f (c.holds reg)) := by
  obtain ⟨c₁, hread, hwrite⟩ := answersAll_append.mp h
  have hdata : reg ≤ 0xFF → reg.toUInt8 ≠ iregData := by
    intro hle heq
    exact absurd (heq ▸ hkept.2 hle) (by decide)
  obtain ⟨hholds, hb⟩ := holds_readOut hkept.1 hdata hread
  rw [holds_writeOut hkept hwrite, hholds, hb hkept]

end RegisterFile

open RegisterFile

/-! ### The registers -/

theorem getBits_setBits {lo w : ℕ} (h : lo + w ≤ 8) (v : BitVec w) (b : UInt8) :
    getBits lo w (setBits lo v b) = v := field_withField h v b.toBitVec

theorem getBits_setBits_of_disjoint {lo w lo' w' : ℕ} (h : lo' + w' ≤ 8)
    (hdisjoint : lo' + w' ≤ lo ∨ lo + w ≤ lo') (v : BitVec w) (b : UInt8) :
    getBits lo' w' (setBits lo v b) = getBits lo' w' b :=
  field_withField_of_disjoint h hdisjoint v b.toBitVec

/-- The sensor measures in the ranges by which the device layer scales its samples, 16 g and
1000 degrees per second, at 200 Hz, both halves in low-noise mode, and its pin shows that a
sample is there, until that is looked at. -/
structure Configured (r : UInt32 → UInt8) : Prop where
  accelFsr : getBits 4 3 (r accelConfig0) = 1
  accelOdr : getBits 0 4 (r accelConfig0) = 8
  gyroFsr : getBits 4 4 (r gyroConfig0) = 2
  gyroOdr : getBits 0 4 (r gyroConfig0) = 8
  accelBw : getBits 0 3 (r ipregSys2Reg131) = 1
  gyroBw : getBits 0 3 (r ipregSys1Reg172) = 1
  accelMode : getBits 0 2 (r pwrMgmt0) = 3
  gyroMode : getBits 2 2 (r pwrMgmt0) = 3
  int1Status : r int1Config0 = setBits 2 1#1 0 ∧ r int1Config1 = 0
  polarity : getBits 0 1 (r int1Config2) = 1
  mode : getBits 1 1 (r int1Config2) = 1
  drive : getBits 2 1 (r int1Config2) = 0

/-- One register is changed from what it holds. -/
def modify (reg : UInt32) (f : UInt8 → UInt8) (r : UInt32 → UInt8) : UInt32 → UInt8 :=
  Function.update r reg (f (r reg))

/-- The registers that a reset has left, with the two that are kept over it and all settings. -/
def settled (intf drive : UInt8) (r : UInt32 → UInt8) : UInt32 → UInt8 :=
  modify int1Config2 (pinConfig Icm45688.int1Pin) <| modify int1Config1 (fun _ => 0) <|
    modify int1Config0 (fun _ => setBits 2 1#1 0) <| modify pwrMgmt0 (setBits 2 3#2) <|
    modify pwrMgmt0 (setBits 0 3#2) <| modify ipregSys1Reg172 (setBits 0 1#3) <|
    modify ipregSys2Reg131 (setBits 0 1#3) <| modify gyroConfig0 (setBits 0 8#4) <|
    modify gyroConfig0 (setBits 4 2#4) <| modify accelConfig0 (setBits 0 8#4) <|
    modify accelConfig0 (setBits 4 1#3) <| modify intfConfig1Ovrd (fun _ => intf) <|
    modify driveConfig0 (fun _ => drive) r

theorem configured_settled (intf drive : UInt8) (r : UInt32 → UInt8) :
    Configured (settled intf drive r) := by
  have haccel : settled intf drive r accelConfig0 =
      setBits 0 8#4 (setBits 4 1#3 (r accelConfig0)) := rfl
  have hgyro : settled intf drive r gyroConfig0 =
      setBits 0 8#4 (setBits 4 2#4 (r gyroConfig0)) := rfl
  have hmode : settled intf drive r pwrMgmt0 = setBits 2 3#2 (setBits 0 3#2 (r pwrMgmt0)) := rfl
  have hpin : settled intf drive r int1Config2 =
      setBits 2 0#1 (setBits 1 1#1 (setBits 0 1#1 (r int1Config2))) := rfl
  constructor
  · rw [haccel, getBits_setBits_of_disjoint (by omega) (by omega), getBits_setBits (by omega)]
    rfl
  · rw [haccel, getBits_setBits (by omega)]
    rfl
  · rw [hgyro, getBits_setBits_of_disjoint (by omega) (by omega), getBits_setBits (by omega)]
    rfl
  · rw [hgyro, getBits_setBits (by omega)]
    rfl
  · exact getBits_setBits (by omega) 1#3 (r ipregSys2Reg131)
  · exact getBits_setBits (by omega) 1#3 (r ipregSys1Reg172)
  · rw [hmode, getBits_setBits_of_disjoint (by omega) (by omega), getBits_setBits (by omega)]
    rfl
  · rw [hmode, getBits_setBits (by omega)]
    rfl
  · exact ⟨rfl, rfl⟩
  · rw [hpin, getBits_setBits_of_disjoint (by omega) (by omega),
      getBits_setBits_of_disjoint (by omega) (by omega), getBits_setBits (by omega)]
    rfl
  · rw [hpin, getBits_setBits_of_disjoint (by omega) (by omega), getBits_setBits (by omega)]
    rfl
  · rw [hpin, getBits_setBits (by omega)]
    rfl

/-! ### The bring-up -/

section BringUp

variable {c c' : RegisterFile} {a : Icm45688.Answered}

theorem holds_rangesOut {a : Icm45688.RangesAnswered} (h : AnswersAll c (Icm45688.rangesOut a) c') :
    c'.holds = (modify ipregSys1Reg172 (setBits 0 1#3) <|
      modify ipregSys2Reg131 (setBits 0 1#3) <| modify gyroConfig0 (setBits 0 8#4) <|
      modify gyroConfig0 (setBits 4 2#4) <| modify accelConfig0 (setBits 0 8#4) <|
      modify accelConfig0 (setBits 4 1#3) c.holds) := by
  obtain ⟨c₁, h₁, h⟩ := answersAll_append.mp h
  obtain ⟨c₂, h₂, h⟩ := answersAll_append.mp h
  obtain ⟨c₃, h₃, h⟩ := answersAll_append.mp h
  obtain ⟨c₄, h₄, h⟩ := answersAll_append.mp h
  obtain ⟨c₅, h₅, h₆⟩ := answersAll_append.mp h
  rw [holds_updateOut (by decide) h₆, holds_updateOut (by decide) h₅,
    holds_updateOut (by decide) h₄, holds_updateOut (by decide) h₃,
    holds_updateOut (by decide) h₂, holds_updateOut (by decide) h₁]
  rfl

/-- Of the reset only this is known. -/
theorem holds_resetOut {intf drive sreg status : UInt8}
    (h : AnswersAll c (resetOut intf drive sreg status) c') :
    intf = c.holds intfConfig1Ovrd ∧ drive = c.holds driveConfig0 ∧
      ∃ fresh : UInt32 → UInt8, c'.holds =
        (modify intfConfig1Ovrd (fun _ => intf) <| modify driveConfig0 (fun _ => drive) fresh) := by
  obtain ⟨c₁, h₁, h⟩ := answersAll_append.mp h
  obtain ⟨c₂, h₂, h⟩ := answersAll_append.mp h
  obtain ⟨c₃, h₃, h⟩ := answersAll_append.mp h
  obtain ⟨c₄, h₄, h⟩ := answersAll_append.mp h
  obtain ⟨c₅, h₅, h⟩ := answersAll_append.mp h
  obtain ⟨c₆, h₆, h₇⟩ := answersAll_append.mp h
  obtain ⟨hholds₁, hintf⟩ := holds_readOut (by decide) (by decide) h₁
  obtain ⟨hholds₂, hdrive⟩ := holds_readOut (by decide) (by decide) h₂
  refine ⟨hintf (by decide), ?_, c₃.holds, ?_⟩
  · rw [hdrive (by decide), hholds₁]
  · rw [(holds_readOut (by decide) (by decide) h₇).1, (holds_readOut (by decide) (by decide) h₆).1,
      holds_writeOut (by decide) h₅, holds_writeOut (by decide) h₄]
    rfl

theorem holds_beginOut {slew : UInt8} (h : AnswersAll c (Icm45688.beginOut slew a) c') :
    (∃ fresh, c'.holds = settled (c.holds intfConfig1Ovrd) (setBits 1 2#3 slew) fresh) ∧
      a.gyroSreg = c'.holds sregCtrl := by
  obtain ⟨c₂, hask, h⟩ := answersAll_append.mp h
  obtain ⟨c₁, h₁, h₂⟩ := answersAll_append.mp hask
  obtain ⟨d₈, hconfigure, hlast⟩ := answersAll_append.mp h
  obtain ⟨d₁, hreset, h⟩ := answersAll_append.mp hconfigure
  obtain ⟨d₂, hranges, h⟩ := answersAll_append.mp h
  obtain ⟨d₄, haccel, h⟩ := answersAll_append.mp h
  obtain ⟨d₃, h₃, h₄⟩ := answersAll_append.mp haccel
  obtain ⟨d₆, hgyro, h⟩ := answersAll_append.mp h
  obtain ⟨d₅, h₅, h₆⟩ := answersAll_append.mp hgyro
  obtain ⟨d₇, h₇, h⟩ := answersAll_append.mp h
  obtain ⟨d₇', h₇', h₈⟩ := answersAll_append.mp h
  have hasked : c₂.holds = Function.update c.holds driveConfig0 (setBits 1 2#3 slew) := by
    rw [(holds_readOut (by decide) (by decide) h₂).1, holds_writeOut (by decide) h₁]
  obtain ⟨hintf, hdrive, fresh, hfresh⟩ := holds_resetOut hreset
  have hintf' : a.intf = c.holds intfConfig1Ovrd := by rw [hintf, hasked]; rfl
  have hdrive' : a.drive = setBits 1 2#3 slew := by rw [hdrive, hasked]; rfl
  obtain ⟨hsame₃, -⟩ := holds_readOut (by decide) (by decide) h₃
  obtain ⟨hsame₅, hsreg⟩ := holds_readOut (by decide) (by decide) h₅
  have hmodes : d₆.holds = (modify pwrMgmt0 (setBits 2 3#2) <| modify pwrMgmt0 (setBits 0 3#2)
      d₂.holds) := by
    rw [holds_updateOut (by decide) h₆, hsame₅, holds_updateOut (by decide) h₄, hsame₃]
    rfl
  have hpins : d₈.holds = (modify int1Config2 (pinConfig Icm45688.int1Pin) <|
      modify int1Config1 (fun _ => 0) <| modify int1Config0 (fun _ => setBits 2 1#1 0)
      d₆.holds) := by
    rw [holds_updateOut (by decide) h₈, holds_writeOut (by decide) h₇', holds_writeOut (by decide) h₇]
    rfl
  have hend : c'.holds = d₈.holds := by
    cases hlast with
    | cons hread hnil =>
      cases hnil
      exact holds_read (by decide) hread
  refine ⟨⟨fresh, ?_⟩, ?_⟩
  · rw [hend, hpins, hmodes, holds_rangesOut hranges, hfresh, hintf', hdrive']
    rfl
  · rw [hsreg (by decide), hend, hpins, ← hsame₅]
    have hgyro' : d₆.holds sregCtrl = d₅.holds sregCtrl := by
      rw [holds_updateOut (by decide) h₆]
      rfl
    exact hgyro'.symm

end BringUp

/-- After a begin that reports success, over a sensor that is a store of registers: its fields
are set, two registers are as before the reset (the strength of the lines as it was just
set), all others are as the reset has left them but for the fields, and the driver knows
the format of the data. -/
theorem begin_configures {F : Type} [CMath F] {σ : Type} (t : TracedTransport σ)
    (hspi : t.serifType = uiSpi4) (dev : Icm45688 F) (tdk : InvImuDevice)
    (uninit : ℕ → ℕ → UInt8) (s : σ) :
    Yields (dev.beginDevice t.toInvImuTransport tdk uninit) s fun r s' => r.2 = invImuOk →
      ∃ out, t.log s' = t.log s ++ out ∧ ∀ c c', AnswersAll c out c' →
        Configured c'.holds ∧
        (∃ fresh, c'.holds =
          settled (c.holds intfConfig1Ovrd) (setBits 1 2#3 (uninit 10 0)) fresh) ∧
        r.1.2.endiannessData = ⟨(getBits 1 1 (c'.holds sregCtrl)).setWidth 8⟩ := by
  rw [Icm45688.beginDevice, yields_bind]
  refine (Icm45688.yields_beginTransfers hspi tdk uninit s).imp ?_
  rintro r s' ⟨out, hlog, -, hout, -⟩
  rw [yields_pure]
  intro hr
  obtain ⟨a, rfl, hdev⟩ := hout hr
  refine ⟨_, hlog, fun c c' hall => ?_⟩
  obtain ⟨⟨fresh, hholds⟩, hsreg⟩ := holds_beginOut hall
  refine ⟨?_, ⟨fresh, hholds⟩, ?_⟩
  · rw [hholds]
    exact configured_settled _ _ fresh
  · dsimp only
    rw [hdev, ← hsreg]
    rfl

/-! ### A sensor -/

namespace RegisterFile

/-- A sensor that is a store of registers, with all direct ones 0 after a reset. -/
def respond (c : RegisterFile) : Transfer → Option RegisterFile
  | .read reg bytes true =>
      if reg ∈ keptRegisters then if bytes = [c.direct reg] then some c else none
      else if reg = iregData then
        if bytes = [c.indirect c.pointer] then some { c with pointer := c.pointer + 1 } else none
      else some c
  | .write reg [b] true =>
      if reg = iregAddr158 then none
      else if reg = iregData then some (c.store b)
      else if reg = regMisc2.toUInt8 then some { c with direct := fun _ => 0 }
      else some { c with direct := Function.update c.direct reg b }
  | .write reg [hi, lo] true =>
      if reg = iregAddr158 then some { c with pointer := word16 lo hi } else none
  | .write reg [hi, lo, b] true =>
      if reg = iregAddr158 then some (store { c with pointer := word16 lo hi } b) else none
  | _ => none

theorem answers_of_respond {c c' : RegisterFile} {tr : Transfer} (h : c.respond tr = some c') :
    Answers c tr c' := by
  unfold respond at h
  split at h
  · split_ifs at h with hkept hbytes hdata hbytes
    · obtain rfl := Option.some.inj h
      exact hbytes ▸ .readKept hkept
    · obtain rfl := Option.some.inj h
      rw [hdata, hbytes]
      exact .readData
    · obtain rfl := Option.some.inj h
      exact .readOther hkept hdata
  · split_ifs at h with haddr hdata hmisc
    · obtain rfl := Option.some.inj h
      exact hdata ▸ .writeData
    · obtain rfl := Option.some.inj h
      exact hmisc ▸ .reset
    · obtain rfl := Option.some.inj h
      exact .write haddr hdata hmisc
  · split_ifs at h with haddr
    obtain rfl := Option.some.inj h
    exact haddr ▸ .address
  · split_ifs at h with haddr
    obtain rfl := Option.some.inj h
    exact haddr ▸ .addressData
  · cases h

/-- The sensor after some transfers. -/
def respondAll (c : RegisterFile) : List Transfer → Option RegisterFile
  | [] => some c
  | tr :: trs => (c.respond tr).bind fun c' => c'.respondAll trs

theorem answersAll_of_respondAll {c c' : RegisterFile} {trs : List Transfer}
    (h : c.respondAll trs = some c') : AnswersAll c trs c' := by
  induction trs generalizing c with
  | nil =>
      obtain rfl := Option.some.inj h
      exact .nil
  | cons tr trs ih =>
      obtain ⟨c₁, hfirst, hrest⟩ := Option.bind_eq_some_iff.mp h
      exact .cons (answers_of_respond hfirst) (ih hrest)

end RegisterFile

/-- The sensor with every register 0, big-endian. -/
def atReset : RegisterFile :=
  { direct := fun _ => 0, indirect := fun a => if a = 0xa267 then 0x02 else 0, pointer := 0 }

/-- What it answers on the bus: its name, that the reset is done and that a sample is there, and
what its registers hold. -/
def registerBus : TracedTransport (List Transfer) :=
  answering fun log reg _ =>
    if reg = whoAmI.toUInt8 then invImuWhoami
    else if reg = int1Status0.toUInt8 then 0x84
    else ((atReset.respondAll log).map fun c =>
      if reg = iregData then c.indirect c.pointer else c.direct reg).getD 0

theorem begin_configures_registerBus :
    ∃ r ∈ ((Icm45688.initHandleSpi : Icm45688 ℝ).beginDevice registerBus.toInvImuTransport ⟨0, 0⟩
        fun _ _ => 0).run [],
      r.1.1.2.endiannessData = 1 ∧ ∃ c', AnswersAll atReset r.2 c' ∧ Configured c'.holds := by
  have hrun : ((Icm45688.beginTransfers registerBus.toInvImuTransport ⟨0, 0⟩ fun _ _ => 0).run []).map
      (fun r => (r.1.2, r.1.1.endiannessData, (atReset.respondAll r.2).isSome)) =
        some (0, 1, true) := by decide +kernel
  obtain ⟨r, hr, h⟩ := Option.map_eq_some_iff.mp hrun
  obtain ⟨hstatus, hbig, hsome⟩ : r.1.2 = 0 ∧ r.1.1.endiannessData = 1 ∧
      (atReset.respondAll r.2).isSome = true := by simpa using h
  obtain ⟨c', hc'⟩ := Option.isSome_iff_exists.mp hsome
  obtain ⟨out, hlog, hall⟩ := begin_configures registerBus rfl
    (Icm45688.initHandleSpi : Icm45688 ℝ) ⟨0, 0⟩ (fun _ _ => 0) [] _
    (mem_run_bind.mpr ⟨r, hr, rfl⟩) hstatus
  obtain rfl : r.2 = out := hlog
  exact ⟨_, mem_run_bind.mpr ⟨r, hr, rfl⟩, hbig, c', answersAll_of_respondAll hc',
    (hall _ _ (answersAll_of_respondAll hc')).1⟩

end NuedcFirmware.Modules
