import NuedcFirmware.Modules.ImuWait
import NuedcFirmware.Modules.InvImuConfigured

/-!
Samples over the bus: `ICM45688_MSPM0_GetDataReady` and `ICM45688_MSPM0_Update` with their
transfers.

A sample is seven signed words in the registers from 0 on, high byte first or low byte first
as the sensor is set. A device that has been set up takes them apart the way the sensor puts
them together (`formatData_sampleBytes`), so that over a whole session the filters get the
samples that the sensor has sent, each once and in their order (`session_samples`).
-/

namespace NuedcFirmware.Modules

open NuedcFirmware.Lib InvImu

/-- The words of a sample. -/
def InvImuSensorData.words (raw : InvImuSensorData) : List ℤ :=
  [raw.accelX, raw.accelY, raw.accelZ, raw.gyroX, raw.gyroY, raw.gyroZ, raw.temp]

/-- The words are signed 16-bit words. -/
def InvImuSensorData.Fits (raw : InvImuSensorData) : Prop :=
  ∀ x ∈ raw.words, -2 ^ 15 ≤ x ∧ x < 2 ^ 15

/-- A word in the registers of the sensor. -/
def wordBytes (isBigEndian : UInt8) (x : ℤ) : List UInt8 :=
  if isBigEndian = 1 then [highByte x, lowByte x] else [lowByte x, highByte x]

def sampleBytes (isBigEndian : UInt8) (raw : InvImuSensorData) : List UInt8 :=
  raw.words.flatMap (wordBytes isBigEndian)

namespace InvImu

theorem format16BitsData_eq (isBigEndian p₀ p₁ : UInt8) :
    format16BitsData isBigEndian p₀ p₁ = if isBigEndian = 1 then int16 p₁ p₀ else int16 p₀ p₁ := by
  have hor (lo hi : UInt8) : hi.toNat <<< 8 ||| lo.toNat = word16 lo hi := by
    rw [Nat.or_comm, or_shiftLeft_eq_word16]
  rw [format16BitsData, int16, int16]
  by_cases h : isBigEndian = 1
  · rw [if_pos h, if_pos h, hor]
  · rw [if_neg h, if_neg h, hor]

/-- The driver takes apart what the sensor has put together. -/
theorem formatData_sampleBytes (isBigEndian : UInt8) {raw : InvImuSensorData} (h : raw.Fits) :
    formatData isBigEndian ((sampleBytes isBigEndian raw).getD · 0) = raw := by
  have hword : ∀ x ∈ raw.words, int16 (lowByte x) (highByte x) = x :=
    fun x hx => int16_bytes (h x hx).1 (h x hx).2
  obtain ⟨ax, ay, az, gx, gy, gz, temp⟩ := raw
  simp only [InvImuSensorData.words, List.forall_mem_cons, List.not_mem_nil, false_implies,
    implies_true, and_true] at hword
  obtain ⟨hax, hay, haz, hgx, hgy, hgz, htemp⟩ := hword
  by_cases hbig : isBigEndian = 1
  · have hbytes : sampleBytes isBigEndian ⟨ax, ay, az, gx, gy, gz, temp⟩ =
        [highByte ax, lowByte ax, highByte ay, lowByte ay, highByte az, lowByte az, highByte gx,
          lowByte gx, highByte gy, lowByte gy, highByte gz, lowByte gz, highByte temp,
          lowByte temp] := by
      simp [sampleBytes, InvImuSensorData.words, wordBytes, hbig]
    simp only [formatData, format16BitsData_eq, if_pos hbig, hbytes]
    show InvImuSensorData.mk (int16 (lowByte ax) (highByte ax)) (int16 (lowByte ay) (highByte ay))
      (int16 (lowByte az) (highByte az)) (int16 (lowByte gx) (highByte gx))
      (int16 (lowByte gy) (highByte gy)) (int16 (lowByte gz) (highByte gz))
      (int16 (lowByte temp) (highByte temp)) = _
    rw [hax, hay, haz, hgx, hgy, hgz, htemp]
  · have hbytes : sampleBytes isBigEndian ⟨ax, ay, az, gx, gy, gz, temp⟩ =
        [lowByte ax, highByte ax, lowByte ay, highByte ay, lowByte az, highByte az, lowByte gx,
          highByte gx, lowByte gy, highByte gy, lowByte gz, highByte gz, lowByte temp,
          highByte temp] := by
      simp [sampleBytes, InvImuSensorData.words, wordBytes, hbig]
    simp only [formatData, format16BitsData_eq, if_neg hbig, hbytes]
    show InvImuSensorData.mk (int16 (lowByte ax) (highByte ax)) (int16 (lowByte ay) (highByte ay))
      (int16 (lowByte az) (highByte az)) (int16 (lowByte gx) (highByte gx))
      (int16 (lowByte gy) (highByte gy)) (int16 (lowByte gz) (highByte gz))
      (int16 (lowByte temp) (highByte temp)) = _
    rw [hax, hay, haz, hgx, hgy, hgz, htemp]

theorem getD_bufferBytes (buf : ℕ → UInt8) {len : UInt32} {i : ℕ} (h : i < len.toNat) :
    (bufferBytes buf len).getD i 0 = buf i := by
  rw [bufferBytes, List.getD_eq_getElem _ _ (by simpa using h), List.getElem_map,
    List.getElem_range]

theorem yields_getRegisterData {σ : Type} {t : TracedTransport σ} (tdk : InvImuDevice)
    (uninit : ℕ → UInt8) (s : σ) :
    Yields (getRegisterData t.toInvImuTransport tdk uninit) s fun r s' =>
      ∃ (bytes : List UInt8) (ok : Bool),
        t.log s' = t.log s ++ [.read accelDataX1Ui.toUInt8 bytes ok] ∧ (r.2 = 0 ↔ ok = true) ∧
          r.1 = formatData tdk.endiannessData (bytes.getD · 0) := by
  rw [getRegisterData, returnStatus, StateT.run_bind, yields_bind, yields_orStatus, readReg,
    if_neg (by decide)]
  refine (yields_readDreg accelDataX1Ui.toUInt8 sensorDataSize uninit s).imp ?_
  rintro r s' ⟨ok, hlog, hok⟩
  rw [StateT.run_pure, yields_pure]
  dsimp only
  rw [zero_lor]
  refine ⟨_, ok, hlog, hok, ?_⟩
  have hbytes (i : ℕ) (hi : i < 14) : (bufferBytes r.1 sensorDataSize).getD i 0 = r.1 i :=
    getD_bufferBytes r.1 hi
  simp only [formatData, hbytes, Nat.reduceMul, Nat.reduceAdd, Nat.reduceLT]

end InvImu

namespace Icm45688

section Bus

variable {σ : Type} (t : InvImuTransport σ) {F : Type} [CMath F]

/-- `ICM45688_MSPM0_GetDataReady`: the status, and the flag. -/
def dataReadyDevice (dev : Icm45688 F) (uninit : ℕ → UInt8) : Driver σ (ℤ × Bool) :=
  if !dev.ready then return (invImuError, false)
  else do
    let r ← getIntStatus t .int1 uninit
    return dev.getDataReady r.2 r.1.uiDrdy

/-- `ICM45688_MSPM0_Update`. -/
def updateDevice (dev : Icm45688 F) (tdk : InvImuDevice) (uninit : ℕ → UInt8) :
    Driver σ (Icm45688 F × ℤ) :=
  if !dev.ready then return (dev, invImuError)
  else do
    let r ← getRegisterData t tdk uninit
    let u := dev.update r.2 r.1
    return (u.2, u.1)

/-- A round of the loop in `wait_and_update_imu` that finds the line of the sensor high. -/
def sampleRound (tdk : InvImuDevice) (uninit : ℕ → ℕ → UInt8) (dev : Icm45688 F) :
    Driver σ (Icm45688 F) := do
  let r ← dataReadyDevice t dev (uninit 12)
  if r.1 = invImuOk ∧ r.2 = true then do
    let u ← updateDevice t dev tdk (uninit 13)
    return u.1
  else return dev

def sampleRounds (tdk : InvImuDevice) (uninit : ℕ → ℕ → UInt8) :
    ℕ → Icm45688 F → Driver σ (Icm45688 F)
  | 0, dev => return dev
  | n + 1, dev => do
      let dev ← sampleRound t tdk uninit dev
      sampleRounds tdk uninit n dev

/-- A begin and the rounds after it. -/
def session (dev : Icm45688 F) (tdk : InvImuDevice) (uninit : ℕ → ℕ → UInt8) (n : ℕ) :
    Driver σ (Icm45688 F × ℤ) := do
  let r ← beginDevice t dev tdk uninit
  let dev ← sampleRounds t r.1.2 uninit n r.1.1
  return (dev, r.2)

end Bus

section Ready

variable {F : Type} [CMath F] (dev : Icm45688 F)

@[simp] theorem ready_applySampleLowpass (ax ay az gx gy gz : F) :
    (dev.applySampleLowpass ax ay az gx gy gz).ready = dev.ready := by
  obtain ⟨_, _, _, _, _, _, _, hwrites⟩ := dev.applySampleLowpass_writes ax ay az gx gy gz
  rw [hwrites]

@[simp] theorem ready_updateStationaryState : dev.updateStationaryState.ready = dev.ready := rfl

@[simp] theorem ready_updateAutoGyroBias (gx gy gz : F) :
    (dev.updateAutoGyroBias gx gy gz).ready = dev.ready := by
  obtain ⟨_, _, _, _, hwrites⟩ := dev.updateAutoGyroBias_writes gx gy gz
  rw [hwrites]

@[simp] theorem ready_updateComplementaryAttitude :
    dev.updateComplementaryAttitude.ready = dev.ready := by
  obtain ⟨_, _, _, hwrites⟩ := dev.updateComplementaryAttitude_writes
  rw [hwrites]

@[simp] theorem ready_updateMahonyAttitude : dev.updateMahonyAttitude.ready = dev.ready := by
  obtain ⟨_, _, _, _, _, _, _, _, _, _, hwrites⟩ := dev.updateMahonyAttitude_writes
  rw [hwrites]

/-- A device stays ready. -/
@[simp] theorem ready_processSample (raw : InvImuSensorData) :
    (dev.processSample raw).ready = dev.ready := by
  rw [processSample]
  dsimp only
  split <;> simp

end Ready

section Traced

variable {σ : Type} {t : TracedTransport σ} {F : Type} [CMath F]

/-- The reading of one sample: the bytes, and whether it succeeded. -/
def sampleRead (x : List UInt8 × Bool) : Transfer := .read accelDataX1Ui.toUInt8 x.1 x.2

theorem yields_updateDevice {dev : Icm45688 F} (hready : dev.ready = true) (tdk : InvImuDevice)
    (uninit : ℕ → UInt8) (s : σ) :
    Yields (updateDevice t.toInvImuTransport dev tdk uninit) s fun r s' => ∃ x,
      t.log s' = t.log s ++ [sampleRead x] ∧
        r.1 = if x.2 = true then
          dev.processSample (formatData tdk.endiannessData (x.1.getD · 0)) else dev := by
  rw [updateDevice, hready, if_neg (by decide), yields_bind]
  refine (yields_getRegisterData tdk uninit s).imp ?_
  rintro r s' ⟨bytes, ok, hlog, hok, hdata⟩
  rw [yields_pure]
  refine ⟨(bytes, ok), hlog, ?_⟩
  rw [update, hready, if_neg (by decide), hdata]
  by_cases h : r.2 = invImuOk
  · rw [if_neg (not_not.mpr h), if_pos (hok.mp h)]
  · rw [if_pos h, if_neg (fun h' => h (hok.mpr h'))]

/-- What a round sends. -/
inductive RoundSends : List Transfer → Prop
  | failed (b₀ b₁ : UInt8) : RoundSends [.read int1Status0.toUInt8 [b₀, b₁] false]
  | idle (b₀ b₁ : UInt8) (h : (intState b₀ b₁).uiDrdy = false) :
      RoundSends [.read int1Status0.toUInt8 [b₀, b₁] true]
  | sample (b₀ b₁ : UInt8) (h : (intState b₀ b₁).uiDrdy = true) (x : List UInt8 × Bool) :
      RoundSends [.read int1Status0.toUInt8 [b₀, b₁] true, sampleRead x]

/-- The bytes of a sample, where the transfer is the reading of one and succeeded. -/
def arrived : Transfer → Option (List UInt8)
  | .read reg bytes true => if reg = accelDataX1Ui.toUInt8 then some bytes else none
  | _ => none

/-- The device after the samples among some transfers. -/
def afterSamples (isBigEndian : UInt8) (dev : Icm45688 F) (out : List Transfer) : Icm45688 F :=
  (out.filterMap arrived).foldl
    (fun d bytes => d.processSample (formatData isBigEndian (bytes.getD · 0))) dev

theorem yields_getIntStatus (uninit : ℕ → UInt8) (s : σ) :
    Yields (getIntStatus t.toInvImuTransport .int1 uninit) s fun r s' => ∃ (b₀ b₁ : UInt8) (ok : Bool),
      t.log s' = t.log s ++ [.read int1Status0.toUInt8 [b₀, b₁] ok] ∧ (r.2 = 0 ↔ ok = true) ∧
        r.1 = intState b₀ b₁ := by
  rw [getIntStatus, returnStatus, StateT.run_bind, yields_bind, yields_orStatus, readReg,
    if_neg (by decide)]
  refine (yields_readDreg int1Status0.toUInt8 2 uninit s).imp ?_
  rintro r s' ⟨ok, hlog, hok⟩
  rw [StateT.run_pure, yields_pure]
  dsimp only
  rw [zero_lor]
  exact ⟨r.1 0, r.1 1, ok, hlog, hok, rfl⟩

theorem yields_sampleRound {dev : Icm45688 F} (hready : dev.ready = true) (tdk : InvImuDevice)
    (uninit : ℕ → ℕ → UInt8) (s : σ) :
    Yields (sampleRound t.toInvImuTransport tdk uninit dev) s fun dev' s' => ∃ out,
      t.log s' = t.log s ++ out ∧ RoundSends out ∧ dev'.ready = true ∧
        dev' = afterSamples tdk.endiannessData dev out := by
  rw [sampleRound, yields_bind, dataReadyDevice, hready, if_neg (by decide), yields_bind]
  refine (yields_getIntStatus (uninit 12) s).imp ?_
  rintro r s₁ ⟨b₀, b₁, ok, hlog, hok, hstate⟩
  have hget : dev.getDataReady r.2 r.1.uiDrdy =
      if r.2 = invImuOk then (r.2, (intState b₀ b₁).uiDrdy) else (r.2, false) := by
    rw [getDataReady, hready, hstate]
    rfl
  rw [yields_pure, hget]
  by_cases hr : r.2 = invImuOk
  · obtain rfl : ok = true := hok.mp hr
    rw [if_pos hr, hr]
    by_cases hdrdy : (intState b₀ b₁).uiDrdy = true
    · rw [if_pos ⟨rfl, hdrdy⟩, yields_bind]
      refine (yields_updateDevice hready tdk (uninit 13) s₁).imp ?_
      rintro u s₂ ⟨⟨bytes, ok'⟩, hlog', hu⟩
      rw [yields_pure]
      refine ⟨_, by rw [hlog', hlog, List.append_assoc]; rfl, .sample b₀ b₁ hdrdy (bytes, ok'), ?_, ?_⟩
      · rw [hu]
        split
        · rw [ready_processSample, hready]
        · exact hready
      · rw [hu]
        cases ok' <;> rfl
    · rw [if_neg (fun h => hdrdy h.2), yields_pure]
      exact ⟨_, hlog, .idle b₀ b₁ (by simpa using hdrdy), hready, rfl⟩
  · obtain rfl : ok = false := Bool.eq_false_iff.mpr fun h => hr (hok.mpr h)
    rw [if_neg hr, if_neg (fun h => hr h.1), yields_pure]
    exact ⟨_, hlog, .failed b₀ b₁, hready, rfl⟩

theorem afterSamples_append (isBigEndian : UInt8) (dev : Icm45688 F) (out out' : List Transfer) :
    afterSamples isBigEndian dev (out ++ out') =
      afterSamples isBigEndian (afterSamples isBigEndian dev out) out' := by
  rw [afterSamples, List.filterMap_append, List.foldl_append]
  rfl

theorem yields_sampleRounds {dev : Icm45688 F} (hready : dev.ready = true) (tdk : InvImuDevice)
    (uninit : ℕ → ℕ → UInt8) (n : ℕ) (s : σ) :
    Yields (sampleRounds t.toInvImuTransport tdk uninit n dev) s fun dev' s' =>
      ∃ rounds : List (List Transfer), rounds.length = n ∧ (∀ out ∈ rounds, RoundSends out) ∧
        t.log s' = t.log s ++ rounds.flatten ∧
        dev' = afterSamples tdk.endiannessData dev rounds.flatten := by
  induction n generalizing dev s with
  | zero =>
      rw [sampleRounds, yields_pure]
      exact ⟨[], rfl, by simp, by simp, rfl⟩
  | succ n ih =>
      rw [sampleRounds, yields_bind]
      refine (yields_sampleRound hready tdk uninit s).imp ?_
      rintro dev₁ s₁ ⟨out, hlog, hsends, hready', hdev₁⟩
      refine (ih hready' s₁).imp ?_
      rintro dev' s₂ ⟨rounds, hlength, hall, hlog', hdev'⟩
      refine ⟨out :: rounds, by rw [List.length_cons, hlength],
        List.forall_mem_cons.mpr ⟨hsends, hall⟩, ?_, ?_⟩
      · rw [hlog', hlog, List.flatten_cons, List.append_assoc]
      · rw [List.flatten_cons, afterSamples_append, ← hdev₁, hdev']

theorem afterSamples_sampleBytes {isBigEndian : UInt8} {out : List Transfer}
    {sent : List InvImuSensorData} (hfits : ∀ raw ∈ sent, raw.Fits)
    (h : out.filterMap arrived = sent.map (sampleBytes isBigEndian)) (dev : Icm45688 F) :
    afterSamples isBigEndian dev out = sent.foldl processSample dev := by
  rw [afterSamples, h, List.foldl_map]
  refine List.foldl_ext _ _ _ fun d raw hraw => ?_
  rw [formatData_sampleBytes isBigEndian (hfits raw hraw)]

/-- Over a whole session, with a sensor that is a store of registers: a sample is read where
the status before it shows one and never else, and the filters get the samples that arrive,
each once and in their order, whichever way round the sensor puts their bytes. -/
theorem session_samples (hspi : t.serifType = uiSpi4) (dev : Icm45688 F) (tdk : InvImuDevice)
    (uninit : ℕ → ℕ → UInt8) (n : ℕ) (s : σ) :
    Yields (session t.toInvImuTransport dev tdk uninit n) s fun r s' => r.2 = invImuOk →
      ∃ (out : List Transfer) (rounds : List (List Transfer)), rounds.length = n ∧
        (∀ out ∈ rounds, RoundSends out) ∧ t.log s' = t.log s ++ out ++ rounds.flatten ∧
        ∀ c c' : RegisterFile, c.AnswersAll out c' → ∀ sent : List InvImuSensorData,
          (∀ raw ∈ sent, raw.Fits) →
          rounds.flatten.filterMap arrived =
            sent.map (sampleBytes ⟨(getBits 1 1 (c'.holds sregCtrl)).setWidth 8⟩) →
          r.1 = sent.foldl processSample (dev.begin invImuOk) := by
  rw [session, yields_bind, beginDevice, yields_bind]
  refine (yields_beginTransfers hspi tdk uninit s).imp ?_
  rintro r s₁ ⟨out, hlog, -, hout, -⟩
  rw [yields_pure, yields_bind]
  dsimp only
  by_cases hr : r.2 = invImuOk
  · rw [hr]
    have hready := (ready_begin dev invImuOk).mpr rfl
    refine (yields_sampleRounds hready r.1 uninit n s₁).imp ?_
    rintro dev' s₂ ⟨rounds, hlength, hsends, hlog', hdev'⟩
    rw [yields_pure]
    rintro -
    refine ⟨out, rounds, hlength, hsends, by rw [hlog', hlog], fun c c' hall sent hfits hsent => ?_⟩
    obtain ⟨a, rfl, hdev⟩ := hout hr
    obtain ⟨-, hsreg⟩ := holds_beginOut hall
    have hformat : r.1.endiannessData = ⟨(getBits 1 1 (c'.holds sregCtrl)).setWidth 8⟩ := by
      rw [hdev, ← hsreg]
      rfl
    rw [hdev', hformat]
    exact afterSamples_sampleBytes hfits hsent _
  · intro dev' _
    rw [yields_pure]
    exact fun h => absurd h hr

end Traced

/-- The sensor of `registerBus`, big-endian, sends the sample of a fall. -/
theorem session_samples_registerBus :
    ∃ r ∈ (session registerBus.toInvImuTransport (initHandleSpi : Icm45688 ℝ) ⟨0, 0⟩
        (fun _ _ => 0) 1).run [],
      r.1.1 = (initHandleSpi.begin invImuOk).processSample ⟨0, 0, 0, 0, 0, 0, 0⟩ := by
  have hrun : ((session registerBus.toInvImuTransport (initHandleSpi : Icm45688 ℝ) ⟨0, 0⟩
      (fun _ _ => 0) 1).run []).map (fun r => (r.1.2, r.2.getLast?,
        (atReset.respondAll r.2.dropLast.dropLast).map (·.holds sregCtrl))) =
      some (0, some (sampleRead (List.replicate 14 0, true)), some 0x02) := by decide +kernel
  obtain ⟨r, hr, h⟩ := Option.map_eq_some_iff.mp hrun
  rw [Prod.mk.injEq, Prod.mk.injEq] at h
  obtain ⟨hstatus, hlast, hsreg⟩ := h
  obtain ⟨c', hc', hbig⟩ := Option.map_eq_some_iff.mp hsreg
  obtain ⟨out, rounds, hlength, hsends, hlog, hall⟩ := session_samples (t := registerBus) rfl
    (initHandleSpi : Icm45688 ℝ) ⟨0, 0⟩ (fun _ _ => 0) 1 [] r hr hstatus
  obtain ⟨out', rfl⟩ := List.length_eq_one_iff.mp hlength
  have hlog : r.2 = [] ++ out ++ [out'].flatten := hlog
  rw [List.nil_append, List.flatten_singleton] at hlog
  have hout' := hsends out' (List.mem_singleton_self _)
  rw [hlog] at hlast hc'
  cases hout' with
  | failed b₀ b₁ => simp [sampleRead, int1Status0, accelDataX1Ui] at hlast
  | idle b₀ b₁ h => simp [sampleRead, int1Status0, accelDataX1Ui] at hlast
  | sample b₀ b₁ h x =>
      have hread : sampleRead x = sampleRead (List.replicate 14 0, true) := by simpa using hlast
      have hdrop : (out ++ [Transfer.read int1Status0.toUInt8 [b₀, b₁] true,
          sampleRead x]).dropLast.dropLast = out := by simp
      rw [hdrop] at hc'
      refine ⟨r, hr, hall _ _ (RegisterFile.answersAll_of_respondAll hc')
        [⟨0, 0, 0, 0, 0, 0, 0⟩] ?_ ?_⟩
      · simp [InvImuSensorData.Fits, InvImuSensorData.words]
      · have harrived : [[Transfer.read int1Status0.toUInt8 [b₀, b₁] true,
            sampleRead (List.replicate 14 0, true)]].flatten.filterMap arrived =
              [List.replicate 14 0] := rfl
        rw [hbig, hread, harrived]
        decide

end Icm45688

end NuedcFirmware.Modules
