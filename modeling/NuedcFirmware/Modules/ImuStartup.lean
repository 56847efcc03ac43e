import NuedcFirmware.Lib.Search
import NuedcFirmware.Modules.ImuService

/-!
The initialisation attempts of the IMU service.

The loop keeps one status for the identity read and the start of the sensor. An
attempt that reads a wrong identity without a bus error never overwrites the good
status of the read, and so counts as a success. The theorem of this module says
when that cannot happen.
-/

namespace NuedcFirmware.Modules.ImuStartup

open NuedcFirmware.Lib NuedcFirmware.Platform NuedcFirmware.System

/-- The attempt verified the identity of the sensor and started it. -/
def InitAttempt.Good (a : InitAttempt) : Prop :=
  a.whoStatus = invImuOk ∧ a.whoami = icm45688ExpectedWhoami ∧ a.beginStatus = invImuOk

/-- The attempt read another identity, with status OK. -/
def InitAttempt.WrongIdentity (a : InitAttempt) : Prop :=
  a.whoStatus = invImuOk ∧ a.whoami ≠ icm45688ExpectedWhoami

variable {F : Type*} [CMath F] (answers : ℕ → InitAttempt) (nowMs : UInt32) (s : ImuService F)
  (fault : FaultManager) (motor : BspMotor)

/-- Start-up accepts only a verified and started sensor: it stops at the first
good attempt and goes on to calibrate, and without one it makes all five attempts
and ends in the fault state with the IMU fault raised. -/
def AcceptsOnlyGood : Prop :=
  let r := imuServiceStartup answers nowMs s fault motor
  (∀ k, 1 ≤ k → k ≤ 5 → InitAttempt.Good (answers k) →
      (∀ j, 1 ≤ j → j < k → ¬ InitAttempt.Good (answers j)) →
        r.attempts = k ∧ r.service.snapshot.state = .calibrating) ∧
    ((∀ k, 1 ≤ k → k ≤ 5 → ¬ InitAttempt.Good (answers k)) →
      r.attempts = 5 ∧ r.service.snapshot.state = .fault ∧
        ∃ detail, (r.fault, r.motor) = systemFaultRaise .imu detail fault motor)

/-- No attempt reads a wrong identity with status OK before the first good one. -/
def NoWrongIdentityFirst : Prop :=
  ∀ k, 1 ≤ k → k ≤ 5 → InitAttempt.WrongIdentity (answers k) →
    ∃ j, 1 ≤ j ∧ j < k ∧ InitAttempt.Good (answers j)

/-! ### The loop -/

/-- The loop counts the attempt as a success: it is good, or only reads a wrong
identity. -/
def InitAttempt.Accepted (a : InitAttempt) : Prop :=
  InitAttempt.Good a ∨ InitAttempt.WrongIdentity a

theorem not_good_of_wrongIdentity {a : InitAttempt} (h : InitAttempt.WrongIdentity a) :
    ¬ InitAttempt.Good a :=
  fun hgood => h.2 hgood.2.1

/-- A pass ends with status OK when the attempt is good, and also when it only
reads a wrong identity. -/
theorem initOnce_status (attempt : ℕ) (a : InitAttempt) :
    (initOnce attempt a : InitProgress F).status = invImuOk ↔ InitAttempt.Accepted a := by
  rw [initOnce, InitAttempt.Accepted, InitAttempt.Good, InitAttempt.WrongIdentity]
  by_cases hwho : a.whoStatus = invImuOk
  · by_cases hid : a.whoami = icm45688ExpectedWhoami
    · simp [hwho, hid]
    · simp [hwho, hid]
  · simp [hwho]

theorem initOnce_attempt (attempt : ℕ) (a : InitAttempt) :
    (initOnce attempt a : InitProgress F).attempt = attempt := by
  rw [initOnce]
  split <;> rfl

/-- The loop ends with status OK at the first attempt it accepts, or makes all of
them and accepts none. -/
theorem initLoop_cases (attempt remaining : ℕ) (p : InitProgress F)
    (hp : p.status ≠ invImuOk ∧ p.attempt + 1 = attempt) :
    let r := initLoop answers attempt remaining p
    (r.status = invImuOk ∧
        FirstIn (fun k => InitAttempt.Accepted (answers k)) attempt (attempt + remaining)
          r.attempt) ∨
      (r.status ≠ invImuOk ∧ r.attempt + 1 = attempt + remaining ∧
        NoneIn (fun k => InitAttempt.Accepted (answers k)) attempt (attempt + remaining)) := by
  induction remaining generalizing attempt p with
  | zero => exact Or.inr ⟨hp.1, hp.2, noneIn_self _ _⟩
  | succ remaining ih =>
      have hattempt := initOnce_attempt (F := F) attempt (answers attempt)
      have hstatus := initOnce_status (F := F) attempt (answers attempt)
      have hrange : attempt + (remaining + 1) = attempt + 1 + remaining := by omega
      rw [initLoop, hrange]
      dsimp only
      by_cases hok : (initOnce attempt (answers attempt) : InitProgress F).status = invImuOk
      · left
        rw [if_pos hok, hattempt]
        exact ⟨hok, firstIn_self (by omega) (hstatus.mp hok)⟩
      · rw [if_neg hok]
        have hrejected : ¬ InitAttempt.Accepted (answers attempt) := fun h => hok (hstatus.mpr h)
        rcases ih (attempt + 1) _ ⟨hok, by rw [hattempt]⟩ with ⟨hend, hfirst⟩ | ⟨hend, hall, hnone⟩
        · exact Or.inl ⟨hend, hfirst.of_succ hrejected⟩
        · exact Or.inr ⟨hend, hall, hnone.of_succ hrejected⟩

/-- Start-up ends in the two ways of its loop. -/
theorem imuServiceStartup_cases :
    let r := imuServiceStartup answers nowMs s fault motor
    (r.service.snapshot.state = .calibrating ∧
        FirstIn (fun k => InitAttempt.Accepted (answers k)) 1 6 r.attempts) ∨
      (r.service.snapshot.state = .fault ∧ r.attempts = 5 ∧
        (∃ detail, (r.fault, r.motor) = systemFaultRaise .imu detail fault motor) ∧
        NoneIn (fun k => InitAttempt.Accepted (answers k)) 1 6) := by
  have hloop := initLoop_cases answers 1 icm45688InitRetries
    { imu := (publishSnapshot .initializing invImuError nowMs s).imu, status := invImuError,
      attempt := 0 } ⟨by show invImuError ≠ invImuOk; decide, rfl⟩
  rw [imuServiceStartup]
  dsimp only at hloop ⊢
  generalize initLoop (F := F) answers 1 icm45688InitRetries _ = p at hloop
  rcases hloop with ⟨hok, hfirst⟩ | ⟨hbad, hall, hnone⟩
  · left
    rw [if_neg (not_not.mpr hok)]
    exact ⟨rfl, hfirst⟩
  · right
    rw [if_pos hbad]
    exact ⟨rfl, Nat.succ_injective hall, ⟨_, rfl⟩, hnone⟩

/-- What start-up should do, in terms of the search: it stops at the first good
attempt, and accepts nothing if there is none. -/
theorem acceptsOnlyGood_iff_search :
    AcceptsOnlyGood answers nowMs s fault motor ↔
      (∀ k, FirstIn (fun k => InitAttempt.Good (answers k)) 1 6 k →
        FirstIn (fun k => InitAttempt.Accepted (answers k)) 1 6 k) ∧
      (NoneIn (fun k => InitAttempt.Good (answers k)) 1 6 →
        NoneIn (fun k => InitAttempt.Accepted (answers k)) 1 6) := by
  have hcases := imuServiceStartup_cases answers nowMs s fault motor
  rw [AcceptsOnlyGood]
  dsimp only at hcases ⊢
  generalize imuServiceStartup answers nowMs s fault motor = r at hcases
  have hbound {k : ℕ} : k < 6 ↔ k ≤ 5 := Nat.lt_succ_iff
  rcases hcases with ⟨hstate, haccepted⟩ | ⟨hstate, hall, hraised, hnone⟩
  · -- an attempt was accepted: it has to be the first good one
    have hnofault : ¬ r.service.snapshot.state = .fault := by simp [hstate]
    refine ⟨?_, ?_⟩
    · rintro ⟨hfirst, hfault⟩
      refine ⟨?_, ?_⟩
      · intro k hk
        obtain ⟨hattempts, -⟩ := hfirst k hk.lo_le (hbound.mp hk.lt_hi) hk.holds hk.before
        exact hattempts ▸ haccepted
      · intro hno
        exact absurd (hfault fun k hle hlt => hno k hle (hbound.mpr hlt)).2.1 hnofault
    · rintro ⟨hfirst, hfault⟩
      refine ⟨?_, ?_⟩
      · intro k hle hlt hgood hbefore
        exact ⟨haccepted.unique (hfirst k ⟨hle, hbound.mpr hlt, hgood, hbefore⟩), hstate⟩
      · intro hno
        have hno' := hfault fun k hle hlt => hno k hle (hbound.mp hlt)
        exact absurd hno' haccepted.not_noneIn
  · -- no attempt was accepted, so none was good
    have hnogood : NoneIn (fun k => InitAttempt.Good (answers k)) 1 6 :=
      fun k hle hlt hgood => hnone k hle hlt (Or.inl hgood)
    refine ⟨?_, ?_⟩
    · intro _
      exact ⟨fun k hk => absurd hnogood hk.not_noneIn, fun _ => hnone⟩
    · intro _
      refine ⟨?_, ?_⟩
      · intro k hle hlt hgood _
        exact absurd hgood (hnogood k hle (hbound.mpr hlt))
      · intro _
        exact ⟨hall, hstate, hraised⟩

/-- For every sequence of answers: start-up accepts only a verified and started
sensor if and only if no wrong identity is read before the first good attempt. -/
theorem acceptsOnlyGood_iff :
    AcceptsOnlyGood answers nowMs s fault motor ↔ NoWrongIdentityFirst answers := by
  have hstricter (k : ℕ) (h : InitAttempt.Good (answers k)) : InitAttempt.Accepted (answers k) :=
    Or.inl h
  rw [acceptsOnlyGood_iff_search, firstIn_agree_iff hstricter]
  refine ⟨?_, ?_⟩
  · intro h k hle hlt hwrong
    exact h k hle (Nat.lt_succ_of_le hlt) (Or.inr hwrong) (not_good_of_wrongIdentity hwrong)
  · intro h k hle hlt haccepted hgood
    exact h k hle (Nat.le_of_lt_succ hlt) (haccepted.resolve_left hgood)

/-- A device that answers 0 to the identity read, without a bus error, is accepted
in the first attempt. -/
theorem accepts_wrong_identity :
    ¬ AcceptsOnlyGood (fun _ => { whoStatus := invImuOk, whoami := 0, beginStatus := invImuOk })
      0 (imuServiceInit : ImuService ℝ) systemFaultInit (bspMotorInit Board.atReset) := by
  intro h
  have hidentity : (0 : UInt8) ≠ icm45688ExpectedWhoami := by decide
  have hfault := (h.2 fun _ _ _ hgood => hidentity hgood.2.1).2.1
  have hstate : (imuServiceStartup
      (fun _ => { whoStatus := invImuOk, whoami := 0, beginStatus := invImuOk }) 0
      (imuServiceInit : ImuService ℝ) systemFaultInit
      (bspMotorInit Board.atReset)).service.snapshot.state = .calibrating := rfl
  rw [hstate] at hfault
  cases hfault

end NuedcFirmware.Modules.ImuStartup
