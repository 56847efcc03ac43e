import NuedcFirmware.Lib.Run
import NuedcFirmware.Modules.ImuService

/-!
The gyro scale over a run of the IMU service.

A yaw calibration works with a scale of 1.0 and keeps the scale to go back to in
its record. A start request is served whatever the state: during a calibration it
keeps the temporary 1.0 as the scale to go back to, and the committed scale is
forgotten. The theorem of this module says that this is the only way to lose it.
-/

namespace NuedcFirmware.Modules.YawScale

open NuedcFirmware.Lib

variable {F : Type*} [CMath F]

/-- The service with the scale an observer holds to be committed. -/
structure Observed (F : Type*) where
  service : ImuService F
  committed : F

/-- What happens in a run: a request arrives, or the loop serves the requests, or
it waits for a sample and handles it. -/
inductive Event
  | requestStart
  | requestCancel
  | serveRequests
  | sample (read : ImuRead) (nowMs : UInt32)

def step (o : Observed F) : Event → Observed F
  | .requestStart => { o with service := imuRequestYawCalibration o.service }
  | .requestCancel => { o with service := imuCancelYawCalibration o.service }
  | .serveRequests => { o with service := o.service.serviceYawRequests }
  | .sample read nowMs =>
      let service := imuServiceSample read nowMs o.service
      { service
        committed :=
          if service.yawCal.state = .complete ∧ o.service.yawCal.state ≠ .complete then
            service.yawCal.resultScale
          else o.committed }

/-- The service after start-up: the gyro calibration has set the scale of the
profile, and the calibration record is cleared. -/
def start (s : ImuService F) (gxMean gyMean gzMean : F) : Observed F where
  service :=
    { s with
      imu := finishGyroCalibration s.imu gxMean gyMean gzMean
      yawCal := YawCalibration.zero }
  committed := (gImuCalibratedProfile : ImuCalibratedProfile F).gyroZScale

/-- A calibration is under way. -/
def InProgress (state : ImuYawCalState) : Prop :=
  state ≠ .idle ∧ state ≠ .complete ∧ state ≠ .failed

/-- Outside a calibration the device has the committed scale. -/
def ScaleCommitted (o : Observed F) : Prop :=
  ¬ InProgress o.service.yawCal.state → o.service.imu.gyroScaleZ = o.committed

/-- A start request is not served during a calibration, unless a cancel request is
served before it or the scale to go back to is 1.0 itself. -/
def NoRestart (o : Observed F) (e : Event) : Prop :=
  e = .serveRequests → o.service.yawCalStartRequested = true →
    InProgress o.service.yawCal.state → o.service.yawCalCancelRequested = true ∨
      o.service.yawCal.previousScale = 1.0

instance (state : ImuYawCalState) : Decidable (InProgress state) :=
  inferInstanceAs (Decidable (state ≠ .idle ∧ state ≠ .complete ∧ state ≠ .failed))

variable [CFloat.Ordered F]

/-! ### Constants -/

theorem one_pos : (0.0 : F) < 1.0 := CFloat.Ordered.zero_lt_ofScientific (by decide) (by decide)

theorem profile_pos : (0.0 : F) < (gImuCalibratedProfile : ImuCalibratedProfile F).gyroZScale :=
  CFloat.Ordered.zero_lt_ofScientific (by decide) (by decide)

theorem pos_of_scaleIsValid {scale : F} (h : scaleIsValid scale = true) : 0.0 < scale := by
  have hmin : (0.0 : F) < yawCalScaleMin :=
    CFloat.Ordered.zero_lt_ofScientific (by decide) (by decide)
  have hvalid : yawCalScaleMin ≤ scale := by
    simp only [scaleIsValid, Bool.and_eq_true, decide_eq_true_eq] at h
    exact h.1
  exact CFloat.Ordered.lt_of_lt_of_le hmin hvalid

/-! ### The invariant -/

/-- The committed scale is positive; a calibration under way uses 1.0 and keeps the
committed scale, and so does a failed one, which has restored it. -/
structure Inv (o : Observed F) : Prop where
  positive : 0.0 < o.committed
  settled : ScaleCommitted o
  temporary : InProgress o.service.yawCal.state → o.service.imu.gyroScaleZ = 1.0
  kept : o.service.yawCal.state ≠ .idle → o.service.yawCal.state ≠ .complete →
    o.service.yawCal.previousScale = o.committed

theorem inv_start (s : ImuService F) (gxMean gyMean gzMean : F) :
    Inv (start s gxMean gyMean gzMean) where
  positive := profile_pos
  settled _ := if_pos profile_pos
  temporary h := absurd rfl h.1
  kept h := absurd rfl h

omit [CFloat.Ordered F] in
/-- A calibration that fails goes back to the scale it has kept. -/
theorem failYawCalibration_spec {s : ImuService F} (h : 0.0 < s.yawCal.previousScale) :
    s.failYawCalibration.yawCal.state = .failed ∧
      s.failYawCalibration.yawCal.previousScale = s.yawCal.previousScale ∧
      s.failYawCalibration.imu.gyroScaleZ = s.yawCal.previousScale :=
  ⟨rfl, rfl, if_pos h⟩

/-- How a step of the calibration ends: still under way with scale and kept scale
untouched, failed with the kept scale restored, or complete with its result. -/
inductive Outcome (s s' : ImuService F) : Prop
  | underWay (state : InProgress s'.yawCal.state)
      (previous : s'.yawCal.previousScale = s.yawCal.previousScale)
      (scale : s'.imu.gyroScaleZ = s.imu.gyroScaleZ)
  | failed (state : s'.yawCal.state = .failed)
      (previous : s'.yawCal.previousScale = s.yawCal.previousScale)
      (scale : s'.imu.gyroScaleZ = s.yawCal.previousScale)
  | complete (state : s'.yawCal.state = .complete)
      (positive : 0.0 < s'.yawCal.resultScale)
      (scale : s'.imu.gyroScaleZ = s'.yawCal.resultScale)

omit [CFloat.Ordered F] in
theorem outcome_fail {s s' : ImuService F} (h : 0.0 < s.yawCal.previousScale)
    (hkept : s'.yawCal.previousScale = s.yawCal.previousScale) :
    Outcome s s'.failYawCalibration := by
  obtain ⟨hstate, hprevious, hscale⟩ := failYawCalibration_spec (s := s') (hkept ▸ h)
  exact .failed hstate (hprevious.trans hkept) (hscale.trans hkept)

theorem outcome_complete {s s' : ImuService F} (h : 0.0 < s.yawCal.previousScale)
    (hkept : s'.yawCal.previousScale = s.yawCal.previousScale) :
    Outcome s s'.completeYawCalibration := by
  rw [ImuService.completeYawCalibration]
  dsimp only
  split_ifs with hmismatch hinvalid
  · exact outcome_fail h hkept
  · exact outcome_fail h hkept
  · have hpos := pos_of_scaleIsValid (by simpa using hinvalid)
    exact .complete rfl hpos (if_pos hpos)

omit [CFloat.Ordered F] in
/-- Waiting for a standstill: below the limit nothing but the counter moves. -/
theorem outcome_settle {s : ImuService F} (hstate : InProgress s.yawCal.state) (still : Bool)
    {done : ImuService F → ImuService F}
    (hdone : ∀ s', s'.yawCal.previousScale = s.yawCal.previousScale →
      s'.imu = s.imu → Outcome s (done s')) :
    Outcome s (s.settle still done) := by
  rw [ImuService.settle]
  dsimp only
  split_ifs
  · exact hdone _ rfl rfl
  · exact .underWay hstate rfl rfl
  · exact .underWay hstate rfl rfl

/-- What one update of the calibration can do. -/
theorem outcome_updateYawCalibration {s : ImuService F} (hstate : InProgress s.yawCal.state)
    (h : 0.0 < s.yawCal.previousScale) : Outcome s s.updateYawCalibration := by
  have hcase := hstate
  rw [ImuService.updateYawCalibration]
  cases hs : s.yawCal.state with
  | idle => exact absurd hs hcase.1
  | complete => exact absurd hs hcase.2.1
  | failed => exact absurd hs hcase.2.2
  | waitStill =>
      apply outcome_settle hstate
      intro s' hkept himu
      exact .underWay (by simp [InProgress]) hkept (by simp [ImuService.resetAttitude, himu])
  | waitPositive =>
      dsimp only
      split_ifs
      · exact .underWay (by simp [InProgress]) rfl rfl
      · exact .underWay hstate rfl rfl
  | positiveActive =>
      apply outcome_settle hstate
      intro s' hkept himu
      dsimp only
      split_ifs
      · exact outcome_fail h hkept
      · exact .underWay (by simp [InProgress]) hkept (by rw [himu])
  | waitNegative =>
      dsimp only
      split_ifs
      · exact .underWay (by simp [InProgress]) rfl rfl
      · exact .underWay hstate rfl rfl
  | negativeActive =>
      apply outcome_settle hstate
      intro s' hkept himu
      exact outcome_complete h hkept

omit [CFloat.Ordered F] in
theorem updateYawCalibration_of_not_inProgress {s : ImuService F}
    (h : ¬ InProgress s.yawCal.state) : s.updateYawCalibration = s := by
  rw [ImuService.updateYawCalibration]
  cases hs : s.yawCal.state <;> first | rfl | exact absurd (by simp [InProgress, hs]) h

omit [CFloat.Ordered F] in
/-- The sample itself, before the calibration looks at it, keeps the scale. -/
theorem gyroScaleZ_waitAndUpdateImu (imu : Icm45688 F) (read : ImuRead) :
    (waitAndUpdateImu imu read).2.gyroScaleZ = imu.gyroScaleZ := by
  cases read with
  | error status h => rfl
  | data status raw => exact Icm45688.gyroScaleZ_update imu status raw

omit [CFloat.Ordered F] in
/-- An outcome speaks of the calibration record and the Z scale alone. -/
theorem Outcome.congr {s₁ s₂ s s' : ImuService F} (h : Outcome s₁ s₂)
    (hyaw : s₁.yawCal = s.yawCal) (hscale : s₁.imu.gyroScaleZ = s.imu.gyroScaleZ)
    (hyaw' : s'.yawCal = s₂.yawCal) (himu' : s'.imu = s₂.imu) : Outcome s s' := by
  cases h with
  | underWay state previous scale =>
      exact .underWay (by rwa [hyaw']) (by rw [hyaw', previous, hyaw])
        (by rw [himu', scale, hscale])
  | failed state previous scale =>
      exact .failed (by rwa [hyaw']) (by rw [hyaw', previous, hyaw]) (by rw [himu', scale, hyaw])
  | complete state positive scale =>
      exact .complete (by rwa [hyaw']) (by rwa [hyaw']) (by rw [himu', scale, hyaw'])

/-- One wait for a sample leaves calibration and scale as they are, or advances a
calibration under way. -/
theorem outcome_imuServiceSample (s : ImuService F) (read : ImuRead) (nowMs : UInt32)
    (h : InProgress s.yawCal.state → 0.0 < s.yawCal.previousScale) :
    ((imuServiceSample read nowMs s).yawCal = s.yawCal ∧
        (imuServiceSample read nowMs s).imu.gyroScaleZ = s.imu.gyroScaleZ) ∨
      (InProgress s.yawCal.state ∧ Outcome s (imuServiceSample read nowMs s)) := by
  have hread := gyroScaleZ_waitAndUpdateImu s.imu read
  rw [imuServiceSample]
  generalize waitAndUpdateImu s.imu read = result at hread
  obtain ⟨status, imu⟩ := result
  by_cases hprogress : InProgress s.yawCal.state
  · by_cases hok : status = invImuOk
    · right
      have hupdate := outcome_updateYawCalibration (s := { s with imu }) hprogress (h hprogress)
      refine ⟨hprogress, hupdate.congr (s := s) rfl hread ?_ ?_⟩
      · simp [publishSnapshot, hok]
      · simp [publishSnapshot, hok]
    · left
      simpa [publishSnapshot, hok] using hread
  · left
    have hidle := updateYawCalibration_of_not_inProgress (s := { s with imu }) hprogress
    by_cases hok : status = invImuOk
    · simpa [publishSnapshot, hok, hidle] using hread
    · simpa [publishSnapshot, hok] using hread

/-! ### The steps -/

theorem startYawCalibration_spec (s : ImuService F) :
    s.startYawCalibration.yawCal.state = .waitStill ∧
      s.startYawCalibration.yawCal.previousScale = s.imu.gyroScaleZ ∧
      s.startYawCalibration.imu.gyroScaleZ = 1.0 :=
  ⟨rfl, rfl, if_pos one_pos⟩

omit [CFloat.Ordered F] in
/-- A cancel request leaves no calibration under way and the committed scale in
the device. -/
theorem cancelYawCalibration_spec {o : Observed F} (h : Inv o) :
    o.service.cancelYawCalibration.yawCal.state = .idle ∧
      o.service.cancelYawCalibration.imu.gyroScaleZ = o.committed := by
  refine ⟨?_, ?_⟩
  · rw [ImuService.cancelYawCalibration]
    split_ifs <;> rfl
  · rw [ImuService.cancelYawCalibration]
    split_ifs with hrestore
    · have hkept := h.kept hrestore.1 hrestore.2.1
      exact (if_pos hrestore.2.2).trans hkept
    · -- nothing is restored, so the device had the committed scale
      apply h.settled
      intro hprogress
      apply hrestore
      refine ⟨hprogress.1, hprogress.2.1, ?_⟩
      rw [h.kept hprogress.1 hprogress.2.1]
      exact h.positive

/-- A start request from a device with the committed scale keeps it for later. -/
theorem inv_startYawCalibration {o : Observed F} {s : ImuService F} (hpos : 0.0 < o.committed)
    (hscale : s.imu.gyroScaleZ = o.committed) :
    Inv { o with service := s.startYawCalibration } where
  positive := hpos
  settled h := absurd (by simp [InProgress, (startYawCalibration_spec s).1]) h
  temporary _ := (startYawCalibration_spec s).2.2
  kept _ _ := (startYawCalibration_spec s).2.1.trans hscale

theorem inv_serveRequests {o : Observed F} (h : Inv o) (hrestart : NoRestart o .serveRequests) :
    Inv (step o .serveRequests) := by
  have hcancel := cancelYawCalibration_spec h
  simp only [step, ImuService.serviceYawRequests]
  cases hc : o.service.yawCalCancelRequested with
  | true =>
      simp only [if_true]
      split_ifs
      · exact inv_startYawCalibration (o := o) h.positive hcancel.2
      · exact ⟨h.positive, fun _ => hcancel.2, fun hp => absurd hcancel.1 hp.1,
          fun hs => absurd hcancel.1 hs⟩
  | false =>
      simp only [Bool.false_eq_true, if_false]
      split_ifs with hs
      · apply inv_startYawCalibration (o := o) h.positive
        by_cases hprogress : InProgress o.service.yawCal.state
        · -- the scale to go back to is 1.0, and so is the temporary one
          rcases hrestart rfl hs hprogress with hcancelled | hone
          · simp [hc] at hcancelled
          · rw [← h.kept hprogress.1 hprogress.2.1, hone]
            exact h.temporary hprogress
        · exact h.settled hprogress
      · exact h

theorem inv_sample {o : Observed F} (h : Inv o) (read : ImuRead) (nowMs : UInt32) :
    Inv (step o (.sample read nowMs)) := by
  have hpos (hprogress : InProgress o.service.yawCal.state) :
      0.0 < o.service.yawCal.previousScale := by
    rw [h.kept hprogress.1 hprogress.2.1]
    exact h.positive
  have hcases := outcome_imuServiceSample o.service read nowMs hpos
  rw [step]
  generalize imuServiceSample read nowMs o.service = s' at hcases
  rcases hcases with ⟨hyaw, hscale⟩ | ⟨hprogress, houtcome⟩
  · -- nothing has changed, and no calibration has completed
    have hcommitted : ¬ (s'.yawCal.state = .complete ∧ o.service.yawCal.state ≠ .complete) := by
      rw [hyaw]
      exact fun hc => hc.2 hc.1
    rw [if_neg hcommitted]
    refine ⟨h.positive, fun hp => ?_, fun hp => ?_, fun hi hc => ?_⟩
    · exact hscale.trans (h.settled (hyaw ▸ hp))
    · exact hscale.trans (h.temporary (hyaw ▸ hp))
    · rw [show s'.yawCal = o.service.yawCal from hyaw] at hi hc ⊢
      exact h.kept hi hc
  · have hkept := h.kept hprogress.1 hprogress.2.1
    cases houtcome with
    | underWay hstate hprevious hscale =>
        rw [if_neg fun hc => hstate.2.1 hc.1]
        exact ⟨h.positive, fun hp => absurd hstate hp,
          fun _ => hscale.trans (h.temporary hprogress), fun _ _ => hprevious.trans hkept⟩
    | failed hstate hprevious hscale =>
        rw [if_neg fun hc => by simp [hstate] at hc]
        exact ⟨h.positive, fun _ => hscale.trans hkept, fun hp => absurd hstate hp.2.2,
          fun _ _ => hprevious.trans hkept⟩
    | complete hstate hpositive hscale =>
        rw [if_pos ⟨hstate, hprogress.2.1⟩]
        exact ⟨hpositive, fun _ => hscale, fun hp => absurd hstate hp.2.1,
          fun _ hc => absurd hstate hc⟩

theorem inv_step {o : Observed F} (h : Inv o) {e : Event} (hrestart : NoRestart o e) :
    Inv (step o e) := by
  cases e with
  | requestStart => exact ⟨h.positive, h.settled, h.temporary, h.kept⟩
  | requestCancel => exact ⟨h.positive, h.settled, h.temporary, h.kept⟩
  | serveRequests => exact inv_serveRequests h hrestart
  | sample read nowMs => exact inv_sample h read nowMs

/-- A wait that ends without a sample. -/
def timeout : Event := .sample (.error invImuErrorTimeout (by decide)) 0

omit [CFloat.Ordered F] in
@[simp] theorem committed_timeout (o : Observed F) : (step o timeout).committed = o.committed := by
  have herror : invImuErrorTimeout ≠ invImuOk := by decide
  simp [step, timeout, imuServiceSample, waitAndUpdateImu, publishSnapshot, herror]

/-- A cancel request that arrives during the next wait. -/
def cancelNext : List Event := [.requestCancel, timeout, .serveRequests]

/-- After a start served during a calibration, a cancel request leaves the device
with 1.0 instead of the committed scale. -/
theorem lost_of_restart {o : Observed F} (h : Inv o) {e : Event} (hrestart : ¬ NoRestart o e) :
    ¬ ScaleCommitted (exec step o (e :: cancelNext)) := by
  unfold NoRestart at hrestart
  push Not at hrestart
  obtain ⟨rfl, hs, hprogress, hc, hone⟩ := hrestart
  have hserved : o.service.serviceYawRequests =
      ImuService.startYawCalibration { o.service with yawCalStartRequested := false } := by
    simp [ImuService.serviceYawRequests, hc, hs]
  -- the restart takes 1.0 for the committed scale, and the cancel request goes back to it
  let restarted : Observed F := { service := o.service.serviceYawRequests, committed := 1.0 }
  have hrestarted : Inv restarted := by
    simp only [restarted, hserved]
    exact inv_startYawCalibration (o := { o with committed := 1.0 }) one_pos
      (h.temporary hprogress)
  let waited := exec step restarted [.requestCancel, timeout]
  have hwaited : Inv waited :=
    inv_step (inv_step hrestarted (e := .requestCancel) (by simp [NoRestart])) (e := timeout)
      (by simp [NoRestart, timeout])
  have hcancel := cancelYawCalibration_spec hwaited
  have hstart : waited.service.yawCalStartRequested = false := by
    simp only [waited, restarted, hserved]
    rfl
  have hlast : (exec step o (.serveRequests :: cancelNext)).service =
      waited.service.cancelYawCalibration := by
    have hnostart : waited.service.cancelYawCalibration.yawCalStartRequested = false := by
      rw [ImuService.cancelYawCalibration]
      split_ifs <;> exact hstart
    show waited.service.serviceYawRequests = _
    rw [ImuService.serviceYawRequests]
    simp only [show waited.service.yawCalCancelRequested = true from rfl, if_true, hnostart,
      Bool.false_eq_true, if_false]
  intro hcommitted
  rw [ScaleCommitted, hlast, hcancel.1, hcancel.2] at hcommitted
  have hwas : waited.committed = 1.0 := committed_timeout (step restarted .requestCancel)
  have his : (exec step o (.serveRequests :: cancelNext)).committed = o.committed :=
    committed_timeout (step (step o .serveRequests) .requestCancel)
  rw [hwas, his] at hcommitted
  have hone' : (1.0 : F) = o.committed := hcommitted (by simp [InProgress])
  exact hone ((h.kept hprogress.1 hprogress.2.1).trans hone'.symm)

/-- The committed scale over any run of the service: it is never lost if no start
request is served during a calibration, unless a cancel request is served first or
the scale to go back to is 1.0; and a run that serves such a request can go on so
that it is lost. -/
theorem scaleCommitted_of_noRestart (s : ImuService F) (gxMean gyMean gzMean : F)
    (run : List Event) (hrun : EachStep step NoRestart (start s gxMean gyMean gzMean) run) :
    EachState step ScaleCommitted (start s gxMean gyMean gzMean) run ∧
      ∀ e, ¬ NoRestart (exec step (start s gxMean gyMean gzMean) run) e →
        ¬ EachState step ScaleCommitted (start s gxMean gyMean gzMean)
          (run ++ e :: cancelNext) := by
  refine ⟨?_, ?_⟩
  · exact hrun.eachState (fun _ _ h he => inv_step h he) (fun _ h => h.settled)
      (inv_start s gxMean gyMean gzMean)
  · intro e hrestart hcommitted
    have h := hrun.invariant (fun _ _ h he => inv_step h he) (inv_start s gxMean gyMean gzMean)
    apply lost_of_restart h hrestart
    rw [← exec_append]
    exact hcommitted _ [] (List.append_nil _).symm

/-- A calibration that is started and cancelled. -/
theorem scaleCommitted_after_cancel :
    EachState step ScaleCommitted (start (imuServiceInit : ImuService ℝ) 0 0 0)
      [.requestStart, .serveRequests, timeout, .requestCancel, .serveRequests] := by
  refine (scaleCommitted_of_noRestart (imuServiceInit : ImuService ℝ) 0 0 0 _ ?_).1
  refine ⟨by simp [NoRestart], ?_, by simp [NoRestart, timeout], by simp [NoRestart], ?_, trivial⟩
  · intro _ _ hprogress
    exact absurd rfl hprogress.1
  · intro _ _ _
    exact Or.inl rfl

/-- A calibration is started twice and then cancelled: the device is left with 1.0
where the profile has 0.994821. -/
theorem scale_lost_by_restart :
    ¬ EachState step ScaleCommitted (start (imuServiceInit : ImuService ℝ) 0 0 0)
      ([.requestStart, .serveRequests, timeout, .requestStart] ++ .serveRequests :: cancelNext) := by
  intro h
  have hprefix : EachStep step NoRestart (start (imuServiceInit : ImuService ℝ) 0 0 0)
      [.requestStart, .serveRequests, timeout, .requestStart] := by
    refine ⟨by simp [NoRestart], ?_, by simp [NoRestart, timeout], by simp [NoRestart], trivial⟩
    intro _ _ hprogress
    exact absurd rfl hprogress.1
  have hinv := hprefix.invariant (fun _ _ h he => inv_step h he) (inv_start _ 0 0 0)
  refine lost_of_restart hinv (e := .serveRequests) ?_ ?_
  · intro hno
    have hprogress : InProgress ImuYawCalState.waitStill := by simp [InProgress]
    rcases hno rfl rfl hprogress with hcancel | hone
    · cases hcancel
    · have hprevious := hinv.kept hprogress.1 hprogress.2.1
      rw [hone] at hprevious
      have hprofile : (1.0 : ℝ) = 0.994821 := hprevious
      norm_num at hprofile
  · rw [← exec_append]
    exact h _ [] (List.append_nil _).symm

end NuedcFirmware.Modules.YawScale
