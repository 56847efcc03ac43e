import NuedcFirmware.App.Drive

/-!
How long a direct duty test lasts.

A test that is taken at `t` is kept with the deadline `t + hold`, wrapped to 32 bits, and
over once the wrapped clock is no longer below it. If the deadline itself has wrapped, it
lies at or before `t`, and the test is over before it begins. If it has not, the clock
passes it at `hold`, but falls below it again when it wraps: an iteration that is only
then the first to look does not see that the time is up.

After a test has been taken the iterations are in one of two phases (`Testing`, `Ended`),
and `lastsExactly_iff` follows from what each does in one iteration.
-/

namespace NuedcFirmware.App.DutyHold

open NuedcFirmware.Lib NuedcFirmware.Platform NuedcFirmware.Modules
open NuedcFirmware.Control

/-- What happens after a test is taken: an iteration of the control task, at the elapsed
time in milliseconds, or some other step of the system. -/
inductive Moment (F : Type*)
  | control (elapsed : ℕ)
  | other (e : Event F) (h : ∀ nowMs, e ≠ .control nowMs)

/-- The times of the control iterations. -/
def times {F : Type*} (run : List (Moment F)) : List ℕ :=
  run.filterMap fun
    | .control elapsed => some elapsed
    | .other _ _ => none

theorem times_append {F : Type*} (run run' : List (Moment F)) :
    times (run ++ run') = times run ++ times run' := List.filterMap_append

variable {F : Type*} [CMath F]

/-- The time in milliseconds since boot wraps. -/
def step (t : UInt32) (fw : Firmware F) : Moment F → Firmware F
  | .control elapsed => controlTask (tick32 (t.toNat + elapsed)) fw
  | .other e _ => App.step fw e

/-- No control iteration finds a request. -/
def NoRequest (fw : Firmware F) (m : Moment F) : Prop :=
  ∀ elapsed, m = .control elapsed →
    fw.telemetry.startRequest = false ∧ fw.telemetry.stopRequest = false ∧
      fw.telemetry.dutyRequestPending = false

/-- The hold time of a request. -/
def holdMs (request : TelemetryDutyRequest) : UInt32 :=
  if request.holdMs = 0 then 800 else request.holdMs

/-- The duty of a request for a wheel, cut to 0 and full scale. -/
def clampedDuty (request : TelemetryDutyRequest) : Wheel → ℤ
  | .left => max 0 (min request.leftPwm 1000)
  | .right => max 0 (min request.rightPwm 1000)

/-- Each iteration before the hold time applies the duties of the request; from the first
one that is not, both are 0 and stay 0. -/
def LastsExactly (t : UInt32) (request : TelemetryDutyRequest) (fw : Firmware F)
    (run : List (Moment F)) : Prop :=
  ∀ before elapsed since, run = before ++ .control elapsed :: since →
    let after := exec (step t) fw (before ++ [.control elapsed])
    (elapsed < (holdMs request).toNat → ∀ w, after.motor.duty w = clampedDuty request w) ∧
      ((holdMs request).toNat ≤ elapsed →
        EachState (step t) (fun fw => ∀ w, fw.motor.duty w = 0) after since)

/-- The wrapped deadline does its work: it has not wrapped, nor has the clock at the first
iteration that the hold time is over for; or it has, and there is no iteration before. -/
def DeadlineWorks (t hold : UInt32) (times : List ℕ) : Prop :=
  if t.toNat + hold.toNat < 2 ^ 32 then
    ∀ elapsed ∈ times.find? (hold.toNat ≤ ·), t.toNat + elapsed < 2 ^ 32
  else ∀ elapsed ∈ times, hold.toNat ≤ elapsed

instance (t hold : UInt32) (times : List ℕ) : Decidable (DeadlineWorks t hold times) :=
  inferInstanceAs (Decidable (ite _ _ _))

/-! ### The test as the chassis keeps it -/

/-- The test as a request sets it. -/
def testOf (t : UInt32) (request : TelemetryDutyRequest) : DirectDuty :=
  ⟨true, request.leftPwm, request.rightPwm, t + holdMs request⟩

/-- The duty that a test applies at a time. -/
def applied (direct : DirectDuty) (nowMs : UInt32) (w : Wheel) : ℤ :=
  if direct.active = true ∧ nowMs < direct.deadlineMs then max 0 (min (direct.duty w) 1000) else 0

/-- The test after the time has been looked at. -/
def looked (direct : DirectDuty) (nowMs : UInt32) : DirectDuty :=
  if direct.active = true ∧ direct.deadlineMs ≤ nowMs then .cleared else direct

/-- The car stands in IDLE under the test `direct`. -/
structure Idle (direct : DirectDuty) (fw : Firmware F) : Prop where
  coherent : fw.motor.Coherent
  state : fw.ctx.state = .idle
  direct : fw.ctx.chassis.direct = direct

/-- The iteration that takes a request. -/
theorem idle_taken {fw : Firmware F} (hcoherent : fw.motor.Coherent)
    (hpending : fw.telemetry.dutyRequestPending = true) (t : UInt32) :
    Idle (looked (testOf t fw.telemetry.dutyRequest) t) (controlTask t fw) := by
  have hstate : nextState fw = .idle := if_pos hpending
  have hdirect : nextDirect t fw = testOf t fw.telemetry.dutyRequest := if_pos hpending
  refine ⟨coherent_controlTask t hcoherent, (state_controlTask t fw).trans hstate, ?_⟩
  rw [direct_controlTask, hdirect, hstate, looked]
  simp only [ne_eq, reduceCtorEq, not_false_eq_true, true_and]

section Iteration

variable {direct : DirectDuty} {fw : Firmware F} (h : Idle direct fw)
include h

theorem Idle.other {e : Event F} (he : ∀ nowMs, e ≠ .control nowMs) :
    Idle direct (App.step fw e) := by
  have hframe := frame_step fw he
  exact ⟨hframe.coherent h.coherent, hframe.state.trans h.state, hframe.direct.trans h.direct⟩

/-- An iteration without a request. -/
theorem Idle.control {elapsed : ℕ} (hquiet : NoRequest fw (.control elapsed)) (nowMs : UInt32) :
    Idle (looked direct nowMs) (controlTask nowMs fw) ∧
      ∀ w, (controlTask nowMs fw).motor.duty w = applied direct nowMs w := by
  obtain ⟨hstart, hstop, hduty⟩ := hquiet elapsed rfl
  have hstate : nextState fw = .idle := by
    simp only [nextState, hstart, hstop, hduty, h.state, Bool.false_eq_true, false_and, if_false]
  have hdirect : nextDirect nowMs fw = direct := by
    simp only [nextDirect, hduty, h.direct, Bool.false_eq_true, if_false]
  refine ⟨⟨coherent_controlTask nowMs h.coherent, (state_controlTask nowMs fw).trans hstate, ?_⟩,
    fun w => ?_⟩
  · rw [direct_controlTask, hdirect, hstate, looked]
    simp only [ne_eq, reduceCtorEq, not_false_eq_true, true_and]
  · rw [duty_controlTask nowMs h.coherent, demand, hstate, hdirect, if_neg AppState.noConfusion,
      applied]
    split_ifs <;> rfl

end Iteration

/-- At each of the times the test applies what the request asks for. -/
def AppliesRequest (t : UInt32) (request : TelemetryDutyRequest) : DirectDuty → List ℕ → Prop
  | _, [] => True
  | direct, elapsed :: times =>
      (∀ w, applied direct (tick32 (t.toNat + elapsed)) w =
        if elapsed < (holdMs request).toNat then clampedDuty request w else 0) ∧
      AppliesRequest t request (looked direct (tick32 (t.toNat + elapsed))) times

/-- An iteration ends with the duties the request asks for at its time. -/
def EndsAsAsked (t : UInt32) (request : TelemetryDutyRequest) (fw : Firmware F) (m : Moment F) :
    Prop :=
  ∀ elapsed, m = .control elapsed → ∀ w, (step t fw m).motor.duty w =
    if elapsed < (holdMs request).toNat then clampedDuty request w else 0

/-- The run of the system shows what the test does at the times of the iterations. -/
theorem endsAsAsked_iff {t : UInt32} {request : TelemetryDutyRequest} {direct : DirectDuty}
    {fw : Firmware F} (h : Idle direct fw) {run : List (Moment F)}
    (hquiet : EachStep (step t) NoRequest fw run) :
    EachStep (step t) (EndsAsAsked t request) fw run ↔
      AppliesRequest t request direct (times run) := by
  induction run generalizing fw direct with
  | nil => exact Iff.rfl
  | cons m run ih =>
      obtain ⟨hm, hrest⟩ := hquiet
      rw [eachStep_cons]
      cases m with
      | control elapsed =>
          obtain ⟨hidle, hduty⟩ := h.control hm (tick32 (t.toNat + elapsed))
          refine and_congr ⟨fun hends w => ?_, ?_⟩ (ih hidle hrest)
          · exact (hduty w).symm.trans (hends elapsed rfl w)
          · rintro happlied elapsed' helapsed w
            cases helapsed
            exact (hduty w).trans (happlied w)
      | other e he =>
          refine (and_iff_right fun elapsed helapsed => ?_).trans (ih (h.other he) hrest)
          cases helapsed

/-! ### When the deadline works -/

section Times

variable (t : UInt32) (request : TelemetryDutyRequest)

theorem holdMs_pos : 0 < (holdMs request).toNat := by
  rw [holdMs]
  split_ifs with h
  · decide
  · have hne : request.holdMs.toNat ≠ 0 := fun hzero => h (UInt32.toNat_inj.mp hzero)
    omega

theorem applied_testOf (nowMs : UInt32) (w : Wheel) :
    applied (testOf t request) nowMs w =
      if nowMs < t + holdMs request then clampedDuty request w else 0 := by
  cases w <;> simp [applied, testOf, clampedDuty, DirectDuty.duty]

theorem looked_testOf (nowMs : UInt32) :
    looked (testOf t request) nowMs =
      if nowMs < t + holdMs request then testOf t request else .cleared := by
  simp only [looked, testOf, true_and, ← UInt32.not_lt, ite_not]

theorem applied_cleared (nowMs : UInt32) (w : Wheel) : applied .cleared nowMs w = 0 := rfl

theorem looked_cleared (nowMs : UInt32) : looked .cleared nowMs = .cleared := rfl

variable {t request}

/-- A request that moves no wheel. -/
theorem appliesRequest_of_zero (hzero : ∀ w, clampedDuty request w = 0) {direct : DirectDuty}
    (hdirect : direct = testOf t request ∨ direct = .cleared) (times : List ℕ) :
    AppliesRequest t request direct times := by
  induction times generalizing direct with
  | nil => trivial
  | cons elapsed times ih =>
      rcases hdirect with rfl | rfl
      · refine ⟨fun w => ?_, ih ?_⟩
        · rw [applied_testOf, hzero]
          simp only [ite_self]
        · rw [looked_testOf]
          split_ifs
          · exact Or.inl rfl
          · exact Or.inr rfl
      · refine ⟨fun w => ?_, ih (Or.inr (looked_cleared _))⟩
        rw [applied_cleared, hzero, ite_self]

section Clock

variable (hdeadline : t.toNat + (holdMs request).toNat < 2 ^ 32) {elapsed : ℕ}
include hdeadline

/-- The clock is below the deadline before the hold time is over, and again once it has
wrapped. -/
theorem tick32_lt_deadline_iff (hlt : elapsed < 2 ^ 32) :
    tick32 (t.toNat + elapsed) < t + holdMs request ↔
      elapsed < (holdMs request).toNat ∨ 2 ^ 32 ≤ t.toNat + elapsed := by
  have ht := t.toNat_lt
  rw [UInt32.lt_iff_toNat_lt, toNat_tick32, UInt32.toNat_add, Nat.mod_eq_of_lt hdeadline]
  rcases lt_or_ge (t.toNat + elapsed) (2 ^ 32) with hbelow | hwrapped
  · rw [Nat.mod_eq_of_lt hbelow]
    omega
  · have hmod : (t.toNat + elapsed) % 2 ^ 32 = t.toNat + elapsed - 2 ^ 32 := by
      rw [Nat.mod_eq_sub_mod hwrapped, Nat.mod_eq_of_lt (by omega)]
    omega

end Clock

section Moving

variable (hmoves : ∃ w, clampedDuty request w ≠ 0)
include hmoves

/-- A test that is over applies 0. -/
theorem appliesRequest_cleared_iff (times : List ℕ) :
    AppliesRequest t request .cleared times ↔
      ∀ elapsed ∈ times, (holdMs request).toNat ≤ elapsed := by
  induction times with
  | nil => exact iff_of_true trivial (by simp)
  | cons elapsed times ih =>
      rw [List.forall_mem_cons, ← ih]
      refine and_congr ⟨fun h => ?_, fun h w => ?_⟩ Iff.rfl
      · obtain ⟨w, hw⟩ := hmoves
        by_contra hlt
        have happlied := h w
        rw [applied_cleared, if_pos (not_le.mp hlt)] at happlied
        exact hw happlied.symm
      · rw [applied_cleared, if_neg (not_lt.mpr h)]

/-- A test whose deadline has not wrapped. -/
theorem appliesRequest_testOf_iff (hdeadline : t.toNat + (holdMs request).toNat < 2 ^ 32)
    {times : List ℕ} (hsorted : times.Pairwise (· ≤ ·)) (hlt : ∀ elapsed ∈ times, elapsed < 2 ^ 32) :
    AppliesRequest t request (testOf t request) times ↔
      ∀ elapsed ∈ times.find? ((holdMs request).toNat ≤ ·), t.toNat + elapsed < 2 ^ 32 := by
  induction times with
  | nil => exact iff_of_true trivial (by simp)
  | cons elapsed times ih =>
      obtain ⟨hfirst, hsorted⟩ := List.pairwise_cons.mp hsorted
      obtain ⟨helapsed, hlt⟩ := List.forall_mem_cons.mp hlt
      have hclock := tick32_lt_deadline_iff hdeadline helapsed
      rw [AppliesRequest, looked_testOf]
      simp only [applied_testOf, List.find?_cons]
      rcases lt_or_ge elapsed (holdMs request).toNat with hbefore | hover
      · -- the test stays on, and applies what it should
        simp only [hclock.mpr (Or.inl hbefore), hbefore, not_le.mpr hbefore, decide_false, if_true,
          implies_true, true_and]
        exact ih hsorted hlt
      · simp only [hover, decide_true, not_lt.mpr hover, if_false, Option.mem_some_iff, forall_eq']
        by_cases hwrapped : 2 ^ 32 ≤ t.toNat + elapsed
        · -- the clock has wrapped in between: the duties are still applied
          simp only [hclock.mpr (Or.inr hwrapped), if_true]
          obtain ⟨w, hw⟩ := hmoves
          exact iff_of_false (fun h => hw (h.1 w)) (not_lt.mpr hwrapped)
        · have hnot : ¬ tick32 (t.toNat + elapsed) < t + holdMs request :=
            fun h => (hclock.mp h).elim (not_lt.mpr hover) hwrapped
          simp only [hnot, if_false, implies_true, true_and]
          refine iff_of_true ?_ (not_le.mp hwrapped)
          exact (appliesRequest_cleared_iff hmoves times).mpr fun e he => hover.trans (hfirst e he)

end Moving

/-- From the iteration that takes the request. -/
theorem appliesRequest_iff {times : List ℕ} (hsorted : times.Pairwise (· ≤ ·))
    (hlt : ∀ elapsed ∈ times, elapsed < 2 ^ 32) :
    AppliesRequest t request (looked (testOf t request) t) times ↔
      (∀ w, clampedDuty request w = 0) ∨ DeadlineWorks t (holdMs request) times := by
  have ht := t.toNat_lt
  have hhold := (holdMs request).toNat_lt
  have hpos := holdMs_pos request
  rw [looked_testOf]
  by_cases hzero : ∀ w, clampedDuty request w = 0
  · refine iff_of_true (appliesRequest_of_zero hzero ?_ times) (Or.inl hzero)
    split_ifs
    · exact Or.inl rfl
    · exact Or.inr rfl
  · have hmoves : ∃ w, clampedDuty request w ≠ 0 := not_forall.mp hzero
    rw [or_iff_right hzero, DeadlineWorks]
    by_cases hdeadline : t.toNat + (holdMs request).toNat < 2 ^ 32
    · have hon : t < t + holdMs request := by
        rw [UInt32.lt_iff_toNat_lt, UInt32.toNat_add, Nat.mod_eq_of_lt hdeadline]
        omega
      rw [if_pos hdeadline, if_pos hon]
      exact appliesRequest_testOf_iff hmoves hdeadline hsorted hlt
    · -- the deadline has wrapped to a time that is past
      have hoff : ¬ t < t + holdMs request := by
        rw [UInt32.lt_iff_toNat_lt, UInt32.toNat_add]
        omega
      rw [if_neg hdeadline, if_neg hoff]
      exact appliesRequest_cleared_iff hmoves times

end Times

/-! ### The system -/

section System

variable {t : UInt32} {request : TelemetryDutyRequest} {fw : Firmware F} {run : List (Moment F)}

theorem coherent_step (h : fw.motor.Coherent) (m : Moment F) : (step t fw m).motor.Coherent := by
  cases m with
  | control elapsed => exact coherent_controlTask _ h
  | other e he => exact App.coherent_step h e

/-- Stopped wheels stay so, where every iteration is past the hold time and ends as asked. -/
theorem stays_stopped (hcoherent : fw.motor.Coherent) (hzero : ∀ w, fw.motor.duty w = 0)
    (hends : EachStep (step t) (EndsAsAsked t request) fw run)
    (hover : ∀ elapsed ∈ times run, (holdMs request).toNat ≤ elapsed) :
    EachState (step t) (fun fw => ∀ w, fw.motor.duty w = 0) fw run := by
  induction run generalizing fw with
  | nil => exact eachState_nil.mpr hzero
  | cons m run ih =>
      obtain ⟨hm, hrest⟩ := hends
      refine eachState_cons.mpr ⟨hzero, ih (coherent_step hcoherent m) (fun w => ?_) hrest ?_⟩
      · cases m with
        | control elapsed =>
            have hpast : (holdMs request).toNat ≤ elapsed := hover elapsed List.mem_cons_self
            rw [hm elapsed rfl w, if_neg (not_lt.mpr hpast)]
        | other e he => exact (frame_step fw he).stopped hcoherent hzero w
      · intro elapsed helapsed
        cases m with
        | control e => exact hover elapsed (List.mem_cons_of_mem _ helapsed)
        | other e he => exact hover elapsed helapsed

/-- The test lasts exactly its time where every iteration ends as asked. -/
theorem lastsExactly_iff_endsAsAsked (hcoherent : fw.motor.Coherent)
    (hsorted : (times run).Pairwise (· ≤ ·)) :
    LastsExactly t request fw run ↔ EachStep (step t) (EndsAsAsked t request) fw run := by
  constructor
  · intro hlasts
    rw [eachStep_iff_of_append]
    rintro before m since hrun elapsed rfl w
    obtain ⟨hon, hoff⟩ := hlasts before elapsed since hrun
    rw [exec_append] at hon hoff
    split_ifs with hlt
    · exact hon hlt w
    · exact hoff (not_lt.mp hlt) [] since rfl w
  · rintro hends before elapsed since rfl
    obtain ⟨-, hcontrol, hsince⟩ := eachStep_append.mp hends
    have hduty := hcontrol elapsed rfl
    rw [times_append] at hsorted
    have hlater : ∀ e ∈ times since, elapsed ≤ e :=
      (List.pairwise_cons.mp (List.pairwise_append.mp hsorted).2.1).1
    have hbefore : (exec (step t) fw before).motor.Coherent :=
      exec_invariant (I := fun fw : Firmware F => fw.motor.Coherent)
        (fun _ m h => coherent_step h m) hcoherent before
    rw [exec_append]
    refine ⟨fun hlt w => (hduty w).trans (if_pos hlt), fun hover => ?_⟩
    have hcoherent' := coherent_step (t := t) hbefore (.control elapsed)
    refine stays_stopped hcoherent' (fun w => ?_) hsince fun e he => hover.trans (hlater e he)
    exact (hduty w).trans (if_neg (not_lt.mpr hover))

end System

section Taken

variable {fw : Firmware F} (hcoherent : fw.motor.Coherent)
  (hpending : fw.telemetry.dutyRequestPending = true) (t : UInt32) {run : List (Moment F)}
  (hquiet : EachStep (step t) NoRequest (controlTask t fw) run)
  (hsorted : (times run).Pairwise (· ≤ ·)) (hlt : ∀ elapsed ∈ times run, elapsed < 2 ^ 32)
include hcoherent hpending hquiet hsorted hlt

theorem lastsExactly_iff_of_coherent :
    LastsExactly t fw.telemetry.dutyRequest (controlTask t fw) run ↔
      (∀ w, clampedDuty fw.telemetry.dutyRequest w = 0) ∨
        DeadlineWorks t (holdMs fw.telemetry.dutyRequest) (times run) := by
  have hidle := idle_taken hcoherent hpending t
  rw [lastsExactly_iff_endsAsAsked hidle.coherent hsorted, endsAsAsked_iff hidle hquiet]
  exact appliesRequest_iff hsorted hlt

end Taken

/-- In every reachable state and for every issue time: a direct duty test that is taken lasts
exactly its hold time, over iterations at later times below `2 ^ 32` that find no request, if
and only if it moves no wheel or the wrapped deadline does its work. -/
theorem lastsExactly_iff (b : Board) (history : List (Event F)) (t : UInt32)
    (run : List (Moment F))
    (hpending : (exec App.step (appInit b : Firmware F) history).telemetry.dutyRequestPending = true)
    (hquiet : EachStep (step t) NoRequest
      (controlTask t (exec App.step (appInit b : Firmware F) history)) run)
    (hsorted : (times run).Pairwise (· ≤ ·)) (hlt : ∀ elapsed ∈ times run, elapsed < 2 ^ 32) :
    let fw := exec App.step (appInit b : Firmware F) history
    let request := fw.telemetry.dutyRequest
    LastsExactly t request (controlTask t fw) run ↔
      (∀ w, clampedDuty request w = 0) ∨ DeadlineWorks t (holdMs request) (times run) :=
  lastsExactly_iff_of_coherent (coherent_exec b history) hpending t hquiet hsorted hlt

/-! ### A test of 800 ms, looked at after 10 ms -/

/-- `$DUTY,300,300,800` has been received. -/
noncomputable def received : Firmware ℝ := exec App.step (appInit Board.atReset) dutyLine

theorem telemetry_received :
    received.telemetry =
      { Telemetry.initial with dutyRequest := ⟨300, 300, 800⟩, dutyRequestPending := true } := by
  rw [received, exec_dutyLine rfl]

def lookedAt : List (Moment ℝ) := [.control 10]

theorem noRequest_lookedAt (t : UInt32) :
    EachStep (step t) NoRequest (controlTask t received) lookedAt := by
  refine ⟨fun _ _ => ?_, trivial⟩
  rw [telemetry_controlTask, telemetry_received]
  exact ⟨rfl, rfl, rfl⟩

theorem sorted_lookedAt : (times lookedAt).Pairwise (· ≤ ·) := List.pairwise_singleton ..

theorem lt_of_mem_lookedAt : ∀ elapsed ∈ times lookedAt, elapsed < 2 ^ 32 := by
  simp [times, lookedAt]

theorem lastsExactly_lookedAt :
    LastsExactly 0 received.telemetry.dutyRequest (controlTask 0 received) lookedAt := by
  refine (lastsExactly_iff Board.atReset dutyLine 0 lookedAt ?_ (noRequest_lookedAt 0)
    sorted_lookedAt lt_of_mem_lookedAt).mpr (Or.inr ?_)
  · exact congrArg Telemetry.dutyRequestPending telemetry_received
  · show DeadlineWorks 0 (holdMs received.telemetry.dutyRequest) [10]
    rw [telemetry_received]
    decide

/-- Taken 100 ms before the clock wraps, the test is over before it begins. -/
theorem over_before_wrap :
    ¬ LastsExactly 4294967196 received.telemetry.dutyRequest (controlTask 4294967196 received)
      lookedAt := by
  have hcoherent : received.motor.Coherent := coherent_exec Board.atReset dutyLine
  have hpending := congrArg Telemetry.dutyRequestPending telemetry_received
  rw [lastsExactly_iff_of_coherent hcoherent hpending 4294967196 (noRequest_lookedAt _)
    sorted_lookedAt lt_of_mem_lookedAt, telemetry_received]
  rintro (hzero | hworks)
  · exact absurd (hzero .left) (by decide)
  · exact absurd hworks (by decide)

end NuedcFirmware.App.DutyHold
