import NuedcFirmware.Modules.YawScale

/-!
What a completed yaw calibration has measured, in exact arithmetic.

The two one-way scales are 1440 degrees over the turn that each direction measured,
and the result is their combination over both turns, which lies between them. The
states in between carry what was captured so far; `Inv` says what, and every request
and every sample keeps it, whatever the sensor reports.
-/

namespace NuedcFirmware.Modules.YawResult

open NuedcFirmware.Lib YawScale

/-- What happens in a run: a request arrives, the loop serves the requests, or it
waits for a sample and handles it. A sample is given by the register data or, more
generally, by any values the device may come to report. -/
inductive Event (F : Type*)
  | requestStart
  | requestCancel
  | serveRequests
  | sample (read : ImuRead) (nowMs : UInt32)
  | reported (yawDeg gzDps : F) (stationary : Bool) (nowMs : UInt32)

section Step

variable {F : Type*} [CMath F] (s : ImuService F)

/-- The service with the sample of an event taken, where `update_yaw_calibration`
follows. -/
def taken : Event F → Option (ImuService F)
  | .sample read _ =>
      let (status, imu) := waitAndUpdateImu s.imu read
      if status = invImuOk then some { s with imu } else none
  | .reported yawDeg gzDps stationary _ =>
      some { s with imu := { s.imu with yawDeg, gzDps, stationary } }
  | _ => none

def step : Event F → ImuService F
  | .requestStart => imuRequestYawCalibration s
  | .requestCancel => imuCancelYawCalibration s
  | .serveRequests => s.serviceYawRequests
  | .sample read nowMs => imuServiceSample read nowMs s
  | .reported yawDeg gzDps stationary nowMs =>
      publishSnapshot .ready invImuOk nowMs
        (ImuService.updateYawCalibration
          { s with imu := { s.imu with yawDeg, gzDps, stationary } })

/-- The phase yaw of `update_yaw_calibration`. -/
def phaseYawDeg : F := s.imu.yawDeg - s.yawCal.phaseOriginDeg

/-- The sample completes the standstill that a capture waits for. -/
def Captures : Prop :=
  s.yawCal.settleSamples + 1 ≥ yawCalSettleSamples ∧ s.imu.stationary = true ∧
    ((s.yawCal.state = .positiveActive ∧ phaseYawDeg s ≥ yawCalFourLapDeg * yawCalCaptureMinRatio) ∨
      (s.yawCal.state = .negativeActive ∧
        phaseYawDeg s ≤ -(yawCalFourLapDeg * yawCalCaptureMinRatio)))

/-- The service as `complete_yaw_calibration` finds it. -/
def atCompletion : ImuService F :=
  { s with
    yawCal :=
      { s.yawCal with
        settleSamples := s.yawCal.settleSamples + 1
        negativeMeasuredDeg := phaseYawDeg s
        negativeScale := -yawCalFourLapDeg / phaseYawDeg s } }

/-- The first three tests of `complete_yaw_calibration`, which come before its
first division. -/
def ScalesValid : Prop :=
  scaleIsValid s.yawCal.positiveScale = true ∧ scaleIsValid s.yawCal.negativeScale = true ∧
    ¬ s.yawCal.positiveScale + s.yawCal.negativeScale ≤ 0.0

/-- The fourth one. -/
def DirectionsAgree : Prop :=
  ¬ 2.0 * absFloat (s.yawCal.positiveScale - s.yawCal.negativeScale) /
    (s.yawCal.positiveScale + s.yawCal.negativeScale) > yawCalDirectionMismatchMax

/-- The combined scale, before its own test. -/
def combinedScale : F :=
  2.0 * yawCalFourLapDeg / (s.yawCal.positiveMeasuredDeg - s.yawCal.negativeMeasuredDeg)

/-- The divisors of the divisions that `update_yaw_calibration` comes to. -/
inductive Divides : F → Prop
  | capture (h : Captures s) : Divides (phaseYawDeg s)
  | mismatch (h : Captures s) (hstate : s.yawCal.state = .negativeActive)
      (hvalid : ScalesValid (atCompletion s)) :
      Divides ((atCompletion s).yawCal.positiveScale + (atCompletion s).yawCal.negativeScale)
  | combine (h : Captures s) (hstate : s.yawCal.state = .negativeActive)
      (hvalid : ScalesValid (atCompletion s)) (hagree : DirectionsAgree (atCompletion s)) :
      Divides ((atCompletion s).yawCal.positiveMeasuredDeg -
        (atCompletion s).yawCal.negativeMeasuredDeg)

end Step

/-! ### Scales -/

/-- The scales that `scale_is_valid` accepts. -/
def Valid (scale : ℝ) : Prop := 0.85 ≤ scale ∧ scale ≤ 1.15

theorem scaleIsValid_iff (scale : ℝ) : scaleIsValid scale = true ↔ Valid scale := by
  rw [scaleIsValid, Bool.and_eq_true]
  exact and_congr decide_eq_true_iff decide_eq_true_iff

theorem Valid.pos {scale : ℝ} (h : Valid scale) : scale > 0.0 := by
  have := h.1
  norm_num at this ⊢
  linarith

theorem fourLap : (yawCalFourLapDeg : ℝ) = 1440 := by
  norm_num [yawCalFourLapDeg]

theorem captureLimit : (yawCalFourLapDeg * yawCalCaptureMinRatio : ℝ) = 1296 := by
  norm_num [yawCalFourLapDeg, yawCalCaptureMinRatio]

theorem absFloat_eq (x : ℝ) : absFloat x = |x| := by
  rw [absFloat]
  split_ifs with h
  · norm_num at h
    rw [abs_of_neg h]
  · norm_num at h
    rw [abs_of_nonneg h]

/-- A fraction put together from two with the same numerator lies between them. -/
theorem combined_between {c a b : ℝ} (hc : 0 < c) (ha : 0 < a) (hb : 0 < b) :
    min (c / a) (c / b) ≤ 2 * c / (a + b) ∧ 2 * c / (a + b) ≤ max (c / a) (c / b) := by
  have hcross (x : ℝ) (hx : 0 < x) :
      (c / x ≤ 2 * c / (a + b) ↔ a + b ≤ 2 * x) ∧ (2 * c / (a + b) ≤ c / x ↔ 2 * x ≤ a + b) := by
    rw [div_le_div_iff₀ hx (by positivity), div_le_div_iff₀ (by positivity) hx]
    refine ⟨⟨fun h => ?_, fun h => ?_⟩, ⟨fun h => ?_, fun h => ?_⟩⟩ <;> nlinarith
  rcases le_total a b with hle | hle
  · exact ⟨min_le_of_right_le ((hcross b hb).1.mpr (by linarith)),
      le_max_of_le_left ((hcross a ha).2.mpr (by linarith))⟩
  · exact ⟨min_le_of_left_le ((hcross a ha).1.mpr (by linarith)),
      le_max_of_le_right ((hcross b hb).2.mpr (by linarith))⟩

/-! ### The invariant -/

/-- What a completed calibration has measured: the turns, the one-way scales they give,
and the result. -/
structure Completed (cal : YawCalibration ℝ) : Prop where
  positive : 1296 ≤ cal.positiveMeasuredDeg
  negative : cal.negativeMeasuredDeg ≤ -1296
  positiveScale : cal.positiveScale = 1440 / cal.positiveMeasuredDeg ∧ Valid cal.positiveScale
  negativeScale : cal.negativeScale = -1440 / cal.negativeMeasuredDeg ∧ Valid cal.negativeScale
  agree : |cal.positiveScale - cal.negativeScale| ≤
    0.02 * ((cal.positiveScale + cal.negativeScale) / 2)
  result : cal.resultScale = 2880 / (cal.positiveMeasuredDeg - cal.negativeMeasuredDeg)
  between : min cal.positiveScale cal.negativeScale ≤ cal.resultScale ∧
    cal.resultScale ≤ max cal.positiveScale cal.negativeScale

/-- The scale is within its limits, 1 during a calibration, and the result of a
completed one. -/
structure Sane (s : ImuService ℝ) : Prop where
  valid : Valid s.imu.gyroScaleZ
  temporary : InProgress s.yawCal.state → s.imu.gyroScaleZ = 1
  completed : s.yawCal.state = .complete →
    Completed s.yawCal ∧ s.imu.gyroScaleZ = s.yawCal.resultScale

/-- A positive turn has been captured, and its scale accepted. -/
def Captured (cal : YawCalibration ℝ) : Prop :=
  1296 ≤ cal.positiveMeasuredDeg ∧ cal.positiveScale = 1440 / cal.positiveMeasuredDeg ∧
    Valid cal.positiveScale

/-- The invariant, of the calibration record and the scale in the device. -/
structure Inv (cal : YawCalibration ℝ) (scale : ℝ) : Prop where
  valid : Valid scale
  temporary : InProgress cal.state → scale = 1
  previous : cal.state ≠ .idle → cal.state ≠ .complete → Valid cal.previousScale
  captured : cal.state = .waitNegative ∨ cal.state = .negativeActive → Captured cal
  completed : cal.state = .complete → Completed cal ∧ scale = cal.resultScale

theorem Inv.sane {s : ImuService ℝ} (h : Inv s.yawCal s.imu.gyroScaleZ) : Sane s :=
  ⟨h.valid, h.temporary, h.completed⟩

theorem inv_fail {s : ImuService ℝ} (h : Valid s.yawCal.previousScale) :
    Inv s.failYawCalibration.yawCal s.failYawCalibration.imu.gyroScaleZ := by
  obtain ⟨hstate, hprevious, hscale⟩ := failYawCalibration_spec h.pos
  refine ⟨hscale ▸ h, fun hp => absurd hstate hp.2.2, fun _ _ => hprevious ▸ h, fun hc => ?_,
    fun hc => ?_⟩
  · simp [hstate] at hc
  · simp [hstate] at hc

/-- The tests of `complete_yaw_calibration` in numbers, behind a positive turn. -/
theorem scalesValid_iff {s : ImuService ℝ} (h : Captured s.yawCal) :
    ScalesValid s ↔ Valid s.yawCal.negativeScale := by
  rw [ScalesValid, scaleIsValid_iff, scaleIsValid_iff]
  refine ⟨fun hvalid => hvalid.2.1, fun hvalid => ⟨h.2.2, hvalid, ?_⟩⟩
  have hpositive := h.2.2.pos
  have hnegative := hvalid.pos
  norm_num at hpositive hnegative ⊢
  linarith

theorem directionsAgree_iff {s : ImuService ℝ} (hpositive : Valid s.yawCal.positiveScale)
    (hnegative : Valid s.yawCal.negativeScale) :
    DirectionsAgree s ↔ |s.yawCal.positiveScale - s.yawCal.negativeScale| ≤
      0.02 * ((s.yawCal.positiveScale + s.yawCal.negativeScale) / 2) := by
  have hpositive := hpositive.pos
  have hnegative := hnegative.pos
  rw [DirectionsAgree, absFloat_eq, yawCalDirectionMismatchMax]
  norm_num at hpositive hnegative ⊢
  have hsum : 0 < s.yawCal.positiveScale + s.yawCal.negativeScale := by linarith
  rw [div_le_iff₀ hsum]
  refine ⟨fun h => ?_, fun h => ?_⟩ <;> linarith

/-- Behind both turns the combined scale lies between the one-way scales, and passes its
own test. -/
theorem combined_spec {s : ImuService ℝ} (h : Captured s.yawCal)
    (hturn : s.yawCal.negativeMeasuredDeg ≤ -1296)
    (hscale : s.yawCal.negativeScale = -1440 / s.yawCal.negativeMeasuredDeg)
    (hvalid : Valid s.yawCal.negativeScale) :
    combinedScale s = 2880 / (s.yawCal.positiveMeasuredDeg - s.yawCal.negativeMeasuredDeg) ∧
      (min s.yawCal.positiveScale s.yawCal.negativeScale ≤ combinedScale s ∧
        combinedScale s ≤ max s.yawCal.positiveScale s.yawCal.negativeScale) ∧
      Valid (combinedScale s) := by
  obtain ⟨hpositive, hpositiveScale, hpositiveValid⟩ := h
  have hcombined : combinedScale s =
      2880 / (s.yawCal.positiveMeasuredDeg - s.yawCal.negativeMeasuredDeg) := by
    rw [combinedScale, fourLap]
    norm_num
  have hbetween := combined_between (c := 1440) (a := s.yawCal.positiveMeasuredDeg)
    (b := -s.yawCal.negativeMeasuredDeg) (by norm_num) (by linarith) (by linarith)
  have hnegate : (1440 : ℝ) / -s.yawCal.negativeMeasuredDeg =
      -1440 / s.yawCal.negativeMeasuredDeg := by
    rw [div_neg, neg_div]
  have hnumerator : (2 : ℝ) * 1440 = 2880 := by norm_num
  rw [hnegate, ← hpositiveScale, ← hscale, ← sub_eq_add_neg, hnumerator, ← hcombined] at hbetween
  refine ⟨hcombined, hbetween, ?_, ?_⟩
  · exact (le_min hpositiveValid.1 hvalid.1).trans hbetween.1
  · exact hbetween.2.trans (max_le hpositiveValid.2 hvalid.2)

/-! ### What an update keeps -/

theorem inv_underWay {cal : YawCalibration ℝ} {scale : ℝ} (hstate : InProgress cal.state)
    (hscale : scale = 1) (hprevious : Valid cal.previousScale)
    (hcaptured : cal.state = .waitNegative ∨ cal.state = .negativeActive → Captured cal) :
    Inv cal scale where
  valid := by
    rw [hscale, Valid]
    norm_num
  temporary _ := hscale
  previous _ _ := hprevious
  captured := hcaptured
  completed hc := absurd hc hstate.2.1

/-- `complete_yaw_calibration`, the turns being captured. -/
theorem inv_complete {s : ImuService ℝ} (h : Captured s.yawCal)
    (hturn : s.yawCal.negativeMeasuredDeg ≤ -1296)
    (hscale : s.yawCal.negativeScale = -1440 / s.yawCal.negativeMeasuredDeg)
    (hprevious : Valid s.yawCal.previousScale) :
    Inv s.completeYawCalibration.yawCal s.completeYawCalibration.imu.gyroScaleZ := by
  rw [ImuService.completeYawCalibration]
  dsimp only
  split_ifs with htests hinvalid
  · exact inv_fail hprevious
  · exact inv_fail hprevious
  · simp only [not_or, Bool.not_eq_true', Bool.not_eq_false] at htests
    obtain ⟨hpositive, hnegative, hsum, hagree⟩ := htests
    have hvalid := (scalesValid_iff h).mp ⟨hpositive, hnegative, hsum⟩
    obtain ⟨hcombined, hbetween, hresult⟩ := combined_spec h hturn hscale hvalid
    show Inv { s.yawCal with
        resultScale := combinedScale s, phaseOriginDeg := 0.0, state := .complete }
      (if combinedScale s > 0.0 then combinedScale s else s.imu.gyroScaleZ)
    rw [if_pos hresult.pos]
    refine ⟨hresult, fun hp => absurd rfl hp.2.1, fun _ hc => absurd rfl hc,
      fun hw => (by cases hw <;> contradiction), fun _ => ⟨?_, rfl⟩⟩
    exact ⟨h.1, hturn, h.2, ⟨hscale, hvalid⟩, (directionsAgree_iff h.2.2 hvalid).mp hagree,
      hcombined, hbetween⟩

/-- Waiting for a standstill: below the limit only the counter moves. -/
theorem inv_settle {s : ImuService ℝ} (h : Inv s.yawCal s.imu.gyroScaleZ)
    (hstate : InProgress s.yawCal.state) (still : Bool) {done : ImuService ℝ → ImuService ℝ}
    (hdone : ∀ s', still = true →
      s' = { s with yawCal := { s.yawCal with settleSamples := s.yawCal.settleSamples + 1 } } →
        Inv (done s').yawCal (done s').imu.gyroScaleZ) :
    Inv (s.settle still done).yawCal (s.settle still done).imu.gyroScaleZ := by
  rw [ImuService.settle]
  dsimp only
  split_ifs with hstill
  · exact hdone _ hstill rfl
  · exact inv_underWay hstate (h.temporary hstate) (h.previous hstate.1 hstate.2.1) h.captured
  · exact inv_underWay hstate (h.temporary hstate) (h.previous hstate.1 hstate.2.1) h.captured

/-- One update, state by state. -/
theorem inv_update {s : ImuService ℝ} (h : Inv s.yawCal s.imu.gyroScaleZ)
    (hstate : InProgress s.yawCal.state) :
    Inv s.updateYawCalibration.yawCal s.updateYawCalibration.imu.gyroScaleZ := by
  have hscale := h.temporary hstate
  have hprevious := h.previous hstate.1 hstate.2.1
  rw [ImuService.updateYawCalibration]
  cases hs : s.yawCal.state with
  | idle => exact absurd hs hstate.1
  | complete => exact absurd hs hstate.2.1
  | failed => exact absurd hs hstate.2.2
  | waitStill =>
      apply inv_settle h hstate
      rintro s' - rfl
      exact inv_underWay (by simp [InProgress]) hscale hprevious (by simp)
  | waitPositive =>
      dsimp only
      split_ifs
      · exact inv_underWay (by simp [InProgress]) hscale hprevious (by simp)
      · exact h
  | positiveActive =>
      apply inv_settle h hstate
      rintro s' hstill rfl
      dsimp only
      split_ifs with hinvalid
      · exact inv_fail hprevious
      · -- the captured turn is at least nine tenths of four laps
        rw [Bool.and_eq_true, decide_eq_true_iff, captureLimit] at hstill
        refine inv_underWay (by simp [InProgress]) hscale hprevious fun _ => ⟨hstill.2, ?_, ?_⟩
        · exact congrArg (· / phaseYawDeg s) fourLap
        · exact (scaleIsValid_iff _).mp (by simpa using hinvalid)
  | waitNegative =>
      dsimp only
      split_ifs
      · exact inv_underWay (by simp [InProgress]) hscale hprevious fun _ => h.captured (Or.inl hs)
      · exact h
  | negativeActive =>
      apply inv_settle h hstate
      rintro s' hstill rfl
      rw [Bool.and_eq_true, decide_eq_true_iff, captureLimit] at hstill
      refine inv_complete (h.captured (Or.inr hs)) hstill.2 ?_ hprevious
      exact congrArg (-· / phaseYawDeg s) fourLap

theorem inv_updateYawCalibration {s : ImuService ℝ} (h : Inv s.yawCal s.imu.gyroScaleZ) :
    Inv s.updateYawCalibration.yawCal s.updateYawCalibration.imu.gyroScaleZ := by
  by_cases hstate : InProgress s.yawCal.state
  · exact inv_update h hstate
  · rw [updateYawCalibration_of_not_inProgress hstate]
    exact h

theorem inv_start_cal {s : ImuService ℝ} (h : Valid s.imu.gyroScaleZ) :
    Inv s.startYawCalibration.yawCal s.startYawCalibration.imu.gyroScaleZ := by
  obtain ⟨hstate, hprevious, hscale⟩ := startYawCalibration_spec s
  refine inv_underWay (by simp [InProgress, hstate]) ?_ (hprevious ▸ h) (by simp [hstate])
  rw [hscale]
  norm_num

theorem inv_cancel {s : ImuService ℝ} (h : Inv s.yawCal s.imu.gyroScaleZ) :
    Inv s.cancelYawCalibration.yawCal s.cancelYawCalibration.imu.gyroScaleZ := by
  have hidle (scale : ℝ) (hvalid : Valid scale) : Inv YawCalibration.zero scale :=
    ⟨hvalid, fun hp => absurd rfl hp.1, fun hi => absurd rfl hi,
      fun hw => (by cases hw <;> contradiction), fun hc => (by cases hc)⟩
  rw [ImuService.cancelYawCalibration]
  split_ifs with hrestore
  · have hvalid := h.previous hrestore.1 hrestore.2.1
    show Inv YawCalibration.zero
      (if s.yawCal.previousScale > 0.0 then s.yawCal.previousScale else s.imu.gyroScaleZ)
    rw [if_pos hvalid.pos]
    exact hidle _ hvalid
  · exact hidle _ h.valid

theorem inv_serveYawRequests {s : ImuService ℝ} (h : Inv s.yawCal s.imu.gyroScaleZ) :
    Inv s.serviceYawRequests.yawCal s.serviceYawRequests.imu.gyroScaleZ := by
  have hcancelled : Inv (if s.yawCalCancelRequested then s.cancelYawCalibration else s).yawCal
      (if s.yawCalCancelRequested then s.cancelYawCalibration else s).imu.gyroScaleZ := by
    split_ifs
    · exact inv_cancel h
    · exact h
  rw [ImuService.serviceYawRequests]
  generalize (if s.yawCalCancelRequested then s.cancelYawCalibration else s) = s' at hcancelled ⊢
  split_ifs
  · exact inv_start_cal (s := { s' with yawCalStartRequested := false }) hcancelled.valid
  · exact hcancelled

theorem inv_step (s : ImuService ℝ) (e : Event ℝ) (h : Inv s.yawCal s.imu.gyroScaleZ) :
    Inv (step s e).yawCal (step s e).imu.gyroScaleZ := by
  cases e with
  | requestStart | requestCancel => exact h
  | serveRequests => exact inv_serveYawRequests h
  | reported yawDeg gzDps stationary nowMs =>
      exact inv_updateYawCalibration
        (s := { s with imu := { s.imu with yawDeg, gzDps, stationary } }) h
  | sample read nowMs =>
      have hread := gyroScaleZ_waitAndUpdateImu s.imu read
      simp only [step, imuServiceSample]
      generalize waitAndUpdateImu s.imu read = result at hread
      obtain ⟨status, imu⟩ := result
      have hkept : Inv s.yawCal imu.gyroScaleZ := by
        rw [hread]
        exact h
      dsimp only
      split_ifs
      · exact inv_updateYawCalibration (s := { s with imu }) hkept
      · exact hkept

/-! ### Divisions and the last test -/

/-- No division of an update is by zero, and when the combined scale comes to be tested it
passes. -/
def Divisible (s : ImuService ℝ) (e : Event ℝ) : Prop :=
  ∀ s', taken s e = some s' → (∀ divisor, Divides s' divisor → divisor ≠ 0) ∧
    (Captures s' → s'.yawCal.state = .negativeActive → ScalesValid (atCompletion s') →
      DirectionsAgree (atCompletion s') → scaleIsValid (combinedScale (atCompletion s')) = true)

theorem inv_taken {s s' : ImuService ℝ} {e : Event ℝ} (h : Inv s.yawCal s.imu.gyroScaleZ)
    (htaken : taken s e = some s') : Inv s'.yawCal s'.imu.gyroScaleZ := by
  cases e with
  | requestStart | requestCancel | serveRequests => cases htaken
  | reported yawDeg gzDps stationary nowMs =>
      obtain rfl := Option.some.inj htaken
      exact h
  | sample read nowMs =>
      have hread := gyroScaleZ_waitAndUpdateImu s.imu read
      simp only [taken] at htaken
      split_ifs at htaken
      obtain rfl := Option.some.inj htaken
      rw [hread]
      exact h

/-- At a capture the phase yaw is at least nine tenths of four laps, one way or the
other. -/
theorem Captures.phase {s : ImuService ℝ} (h : Captures s) :
    (s.yawCal.state = .positiveActive ∧ 1296 ≤ phaseYawDeg s) ∨
      (s.yawCal.state = .negativeActive ∧ phaseYawDeg s ≤ -1296) := by
  obtain ⟨-, -, hphase⟩ := h
  rw [captureLimit] at hphase
  exact hphase

theorem divisible_of_inv (s : ImuService ℝ) (e : Event ℝ) (h : Inv s.yawCal s.imu.gyroScaleZ) :
    Divisible s e := by
  intro s' htaken
  have h' := inv_taken h htaken
  -- behind both turns, what `complete_yaw_calibration` finds
  have hturn (hcaptures : Captures s') (hstate : s'.yawCal.state = .negativeActive) :
      Captured (atCompletion s').yawCal ∧ (atCompletion s').yawCal.negativeMeasuredDeg ≤ -1296 ∧
        (atCompletion s').yawCal.negativeScale =
          -1440 / (atCompletion s').yawCal.negativeMeasuredDeg := by
    refine ⟨h'.captured (Or.inr hstate), ?_, congrArg (-· / phaseYawDeg s') fourLap⟩
    rcases hcaptures.phase with ⟨hother, -⟩ | ⟨-, hphase⟩
    · rw [hstate] at hother
      cases hother
    · exact hphase
  refine ⟨?_, ?_⟩
  · rintro divisor (hcaptures | ⟨hcaptures, hstate, hvalid⟩ | ⟨hcaptures, hstate, -, -⟩)
    · rcases hcaptures.phase with ⟨-, hphase⟩ | ⟨-, hphase⟩
      · linarith
      · linarith
    · have hpositive := ((scaleIsValid_iff _).mp hvalid.1).pos
      have hnegative := ((scaleIsValid_iff _).mp hvalid.2.1).pos
      norm_num at hpositive hnegative
      linarith
    · obtain ⟨hcaptured, hnegative, -⟩ := hturn hcaptures hstate
      have hpositive := hcaptured.1
      linarith
  · intro hcaptures hstate hvalid _
    obtain ⟨hcaptured, hnegative, hscale⟩ := hturn hcaptures hstate
    have hvalid := (scalesValid_iff hcaptured).mp hvalid
    exact (scaleIsValid_iff _).mpr (combined_spec hcaptured hnegative hscale hvalid).2.2

/-- Every run of the service, in exact arithmetic: every state is sane and no update
divides by zero or fails its last test. -/
theorem sane_run (s : ImuService ℝ) (gxMean gyMean gzMean : ℝ) (run : List (Event ℝ)) :
    EachState step Sane (start s gxMean gyMean gzMean).service run ∧
      EachStep step Divisible (start s gxMean gyMean gzMean).service run := by
  have hprofile : Valid (gImuCalibratedProfile : ImuCalibratedProfile ℝ).gyroZScale := by
    rw [Valid, gImuCalibratedProfile]
    norm_num
  have hstart : Inv (start s gxMean gyMean gzMean).service.yawCal
      (start s gxMean gyMean gzMean).service.imu.gyroScaleZ := by
    refine ⟨?_, fun hp => absurd rfl hp.1, fun hi => absurd rfl hi,
      fun hw => (by cases hw <;> contradiction), fun hc => (by cases hc)⟩
    have hscale : (start s gxMean gyMean gzMean).service.imu.gyroScaleZ =
        (gImuCalibratedProfile : ImuCalibratedProfile ℝ).gyroZScale := if_pos profile_pos
    rw [hscale]
    exact hprofile
  refine ⟨?_, EachStep.of_invariant inv_step divisible_of_inv hstart⟩
  rintro pre post rfl
  exact (exec_invariant inv_step hstart pre).sane

end NuedcFirmware.Modules.YawResult
