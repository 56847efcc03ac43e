import NuedcFirmware.Lib.WholeFloat
import NuedcFirmware.Tests.TurnTest

/-!
What an iteration of the turn controller decides.

Every iteration commands both motors, so nothing is left over from the one before: either
every call stops a wheel and each wheel is among them (`AllStop`), or the last two calls
turn the car on the spot, and then every test of the iteration has been passed (`Drives`).
The phases are gone through one by one, with what each can end in (`Ending`).
-/

namespace NuedcFirmware.Tests.TurnSafety

open NuedcFirmware.Lib NuedcFirmware.Platform NuedcFirmware.Modules NuedcFirmware.System

/-! ### Motor calls -/

/-- The wheel a call is about. -/
def wheelOf : MotorCall → Wheel
  | .setSignedDuty ch _ => motorIndex ch
  | .brake ch => motorIndex ch

/-- The call stops its wheel. -/
def Stops : MotorCall → Prop
  | .setSignedDuty _ duty => duty = 0
  | .brake _ => True

/-- The two commands of a turn. -/
def turnPair (left right : ℤ) : List MotorCall := [.setSignedDuty 0 left, .setSignedDuty 1 right]

/-! ### Duties -/

section Pwm

variable {F : Type*} [CFloat F] [CFloat.WholeOrder F]

open CFloat.Whole CFloat.WholeOrder

theorem exact_of_le {n : ℤ} (hlo : 0 ≤ n) (hhi : n ≤ 1200) : Exact n :=
  exact_of_mem (by omega) (by omega)

theorem turnApproachWindowDeg_eq : (turnApproachWindowDeg : F) = ((20 : ℤ) : F) :=
  decimal_eq (n := 20) (exact_of_le (by decide) (by decide))

theorem absFloat_nonneg (x : F) : ((0 : ℤ) : F) ≤ absFloat x := by
  have hzero : (0.0 : F) = ((0 : ℤ) : F) :=
    decimal_eq (n := 0) (exact_of_le (by decide) (by decide))
  rw [absFloat, hzero]
  split_ifs with hneg
  · exact nonneg_neg (CFloat.WholeOrder.le_of_lt hneg)
  · exact not_lt_iff.mp hneg

/-- Near the target the duty grows with the error, from 160 to 220. -/
theorem approach_mem {errorMagnitude : F} (hlo : ((0 : ℤ) : F) ≤ errorMagnitude)
    (hhi : errorMagnitude ≤ ((20 : ℤ) : F)) :
    ((160 : ℤ) : F) ≤
        ((160 : ℤ) : F) + ((60 : ℤ) : F) * errorMagnitude / ((20 : ℤ) : F) ∧
      ((160 : ℤ) : F) + ((60 : ℤ) : F) * errorMagnitude / ((20 : ℤ) : F) ≤ ((220 : ℤ) : F) := by
  have hexact : ∀ n : ℤ, 0 ≤ n → n ≤ 1200 → Exact n := fun _ => exact_of_le
  have hpart : ∀ n : ℤ, 0 ≤ n → n ≤ 20 →
      ((160 : ℤ) : F) + ((60 : ℤ) : F) * (n : F) / ((20 : ℤ) : F) = ((160 + 3 * n : ℤ) : F) := by
    intro n hn hle
    have hproduct : (60 * n : ℤ) = 3 * n * 20 := by ring
    rw [intCast_mul (hexact _ (by decide) (by decide)) (hexact _ hn (by omega))
      (hexact _ (by omega) (by omega)), hproduct,
      intCast_mul_div (by decide) (hexact _ (by decide) (by decide))
        (hexact _ (by omega) (by omega)),
      intCast_add (hexact _ (by decide) (by decide)) (hexact _ (by omega) (by omega))
        (hexact _ (by omega) (by omega))]
  have hmono : ∀ {a b : F}, a ≤ b →
      ((160 : ℤ) : F) + ((60 : ℤ) : F) * a / ((20 : ℤ) : F) ≤
        ((160 : ℤ) : F) + ((60 : ℤ) : F) * b / ((20 : ℤ) : F) := fun h =>
    add_le_add (hexact _ (by decide) (by decide))
      (div_le_div (by decide) (hexact _ (by decide) (by decide))
        (mul_le_mul (by decide) (hexact _ (by decide) (by decide)) h))
  have hbottom := hmono hlo
  have htop := hmono hhi
  rw [hpart 0 le_rfl (by decide)] at hbottom
  rw [hpart 20 (by decide) le_rfl] at htop
  exact ⟨hbottom, htop⟩

/-- Far from the target the duty is raised to 220 if need be. -/
theorem le_raised {errorMagnitude magnitude : F}
    (hnear : errorMagnitude < turnApproachWindowDeg → ((160 : ℤ) : F) ≤ magnitude) :
    ((160 : ℤ) : F) ≤
      if errorMagnitude ≥ turnApproachWindowDeg ∧ magnitude < (turnPwmMin : F) then
        (turnPwmMin : F)
      else magnitude := by
  have hmin : ((160 : ℤ) : F) ≤ (turnPwmMin : F) := intCast_le (by decide)
  split_ifs with hraised
  · exact hmin
  · by_cases hwindow : errorMagnitude < turnApproachWindowDeg
    · exact hnear hwindow
    · have hfar : errorMagnitude ≥ turnApproachWindowDeg := not_lt_iff.mp hwindow
      exact CFloat.Whole.le_trans hmin (not_lt_iff.mp fun hlow => hraised ⟨hfar, hlow⟩)

/-- A duty from 160 on is cut off at 300. -/
theorem capped_mem {magnitude : F} (h : ((160 : ℤ) : F) ≤ magnitude) :
    let capped := if magnitude > (turnPwmMax : F) then (turnPwmMax : F) else magnitude
    140 ≤ toInt16 (truncate capped) ∧ toInt16 (truncate capped) ≤ 300 := by
  intro capped
  have hmem : ∀ x : F, ((160 : ℤ) : F) ≤ x → x ≤ ((300 : ℤ) : F) →
      140 ≤ toInt16 (truncate x) ∧ toInt16 (truncate x) ≤ 300 := by
    intro x hlo hhi
    obtain ⟨hlo, hhi⟩ := truncate_mem (exact_of_le (by decide) (by decide))
      (exact_of_le (by decide) (by decide)) hlo hhi
    rw [toInt16_of_mem (by omega) (by omega)]
    exact ⟨by omega, hhi⟩
  show 140 ≤ toInt16 (truncate (ite ..)) ∧ toInt16 (truncate (ite ..)) ≤ 300
  split_ifs with hhigh
  · exact hmem _ (intCast_le (by decide)) (intCast_le (by decide))
  · exact hmem _ h (not_lt_iff.mp hhigh)

theorem turnPwm_mem (errorDeg : F) : 140 ≤ turnPwm errorDeg ∧ turnPwm errorDeg ≤ 300 := by
  rw [turnPwm]
  refine capped_mem (le_raised fun hnear => ?_)
  rw [if_pos hnear]
  rw [turnApproachWindowDeg_eq] at hnear ⊢
  exact (approach_mem (absFloat_nonneg errorDeg) (CFloat.WholeOrder.le_of_lt hnear)).1

end Pwm

theorem clampFinePwm_mem (pwm : ℤ) : 140 ≤ clampFinePwm pwm ∧ clampFinePwm pwm ≤ 260 := by
  simp only [clampFinePwm, turnFinePwmMin, turnFinePwmMax]
  split_ifs <;> omega

/-- The duty of the fine pulses is in range. -/
def FineRange {F : Type*} (task : ControlTask F) : Prop := 140 ≤ task.finePwm ∧ task.finePwm ≤ 260

theorem fineRange_adaptFinePwm {F : Type*} [CFloat F] {task : ControlTask F}
    (hfine : FineRange task) (yawDeg errorMagnitude : F) :
    140 ≤ adaptFinePwm yawDeg errorMagnitude task ∧
      adaptFinePwm yawDeg errorMagnitude task ≤ 260 := by
  rw [adaptFinePwm]
  dsimp only
  split_ifs
  · exact clampFinePwm_mem _
  · exact clampFinePwm_mem _
  · exact hfine
  · exact hfine

/-- The duties turn the car on the spot, and no faster or slower than they may. -/
def Opposed (left right : ℤ) : Prop :=
  ∃ pwm : ℤ, 140 ≤ pwm ∧ pwm ≤ 300 ∧ (left = -pwm ∧ right = pwm ∨ left = pwm ∧ right = -pwm)

theorem applyTurn_eq {F : Type*} [CFloat F] (errorDeg : F) {pwm : ℤ} (hlo : 140 ≤ pwm)
    (hhi : pwm ≤ 300) :
    ∃ left right, applyTurn errorDeg pwm = turnPair left right ∧ Opposed left right := by
  have hneg : toInt16 (-pwm) = -pwm := toInt16_of_mem (by omega) (by omega)
  rw [applyTurn, hneg]
  split_ifs
  · exact ⟨-pwm, pwm, rfl, pwm, hlo, hhi, Or.inl ⟨rfl, rfl⟩⟩
  · exact ⟨pwm, -pwm, rfl, pwm, hlo, hhi, Or.inr ⟨rfl, rfl⟩⟩

/-! ### What an iteration decides -/

/-- Every call stops a wheel, and each wheel is among them. -/
structure AllStop (calls : List MotorCall) : Prop where
  stops : ∀ c ∈ calls, Stops c
  both : ∀ w, ∃ c ∈ calls, wheelOf c = w

theorem stops_stopMotors : ∀ c ∈ stopMotors, Stops c := by
  simp [stopMotors, Stops]

theorem stops_brakeMotors : ∀ c ∈ brakeMotors, Stops c := by
  simp [brakeMotors, Stops]

theorem allStop_append_stopMotors {calls : List MotorCall} (h : ∀ c ∈ calls, Stops c) :
    AllStop (calls ++ stopMotors) where
  stops c hc := (List.mem_append.mp hc).elim (h c) (stops_stopMotors c)
  both w := by
    cases w with
    | left => exact ⟨.setSignedDuty 0 0, by simp [stopMotors], rfl⟩
    | right => exact ⟨.setSignedDuty 1 0, by simp [stopMotors], rfl⟩

theorem allStop_brakeMotors : AllStop brakeMotors where
  stops := stops_brakeMotors
  both w := by
    cases w with
    | left => exact ⟨.brake 0, by simp [brakeMotors], rfl⟩
    | right => exact ⟨.brake 1, by simp [brakeMotors], rfl⟩

/-- The calls end with a turn, in a turning state in one of the phases that turn. -/
structure Turns {F : Type*} (d : Decision F) : Prop where
  state : d.task.state.isTurning = true
  phase : d.task.phase = .coarse ∨ d.task.phase = .finePulse
  calls : ∃ before left right, d.calls = before ++ turnPair left right ∧
    (∀ c ∈ before, Stops c) ∧ Opposed left right

/-- How the turning part can end: if with a turn, then in a segment that was begun when it
should. -/
inductive Ending {F : Type*} (began : UInt32 → Prop) (d : Decision F) : Prop
  | faulted : d.task.state = .fault → (∀ c ∈ d.calls, Stops c) → Ending began d
  | stopped : AllStop d.calls → Ending began d
  | turned : Turns d → began d.task.segmentStartedMs → Ending began d

theorem Ending.mono {F : Type*} {began began' : UInt32 → Prop} {d : Decision F} (h : Ending began d)
    (himp : ∀ startedMs, began startedMs → began' startedMs) : Ending began' d := by
  cases h with
  | faulted hfault hstops => exact .faulted hfault hstops
  | stopped hstop => exact .stopped hstop
  | turned hturns hbegan => exact .turned hturns (himp _ hbegan)

section Phases

variable {F : Type*} [CFloat F] {task : ControlTask F} (hturning : task.state.isTurning = true)
  (hfine : FineRange task) (now : UInt32) (errorDeg : F)

omit [CFloat F] in
theorem ending_beginBrake : Ending (· = task.segmentStartedMs) (beginBrake now errorDeg task) :=
  .stopped allStop_brakeMotors

/-- A turn that is applied in the phase it is in. -/
theorem ending_applyTurn {d : Decision F} (before : List MotorCall) {x : F} {pwm : ℤ}
    (hstate : d.task.state.isTurning = true)
    (hphase : d.task.phase = .coarse ∨ d.task.phase = .finePulse)
    (hsegment : d.task.segmentStartedMs = task.segmentStartedMs)
    (hbefore : ∀ c ∈ before, Stops c) (hcalls : d.calls = before ++ applyTurn x pwm)
    (hlo : 140 ≤ pwm) (hhi : pwm ≤ 300) : Ending (· = task.segmentStartedMs) d := by
  obtain ⟨left, right, happly, hopposed⟩ := applyTurn_eq x hlo hhi
  rw [happly] at hcalls
  exact .turned ⟨hstate, hphase, before, left, right, hcalls, hbefore, hopposed⟩ hsegment

include hturning hfine

theorem ending_coarsePhase [CFloat.WholeOrder F] (hphase : task.phase = .coarse) :
    Ending (· = task.segmentStartedMs) (coarsePhase now errorDeg task) ∧
      FineRange (coarsePhase now errorDeg task).task := by
  rw [coarsePhase]
  split_ifs
  · exact ⟨ending_beginBrake now errorDeg, hfine⟩
  · have hpwm := turnPwm_mem errorDeg
    exact ⟨ending_applyTurn [] hturning (Or.inl hphase) rfl (by simp) rfl hpwm.1 hpwm.2, hfine⟩

theorem ending_finePulsePhase (hphase : task.phase = .finePulse) :
    Ending (· = task.segmentStartedMs) (finePulsePhase now errorDeg task) ∧
      FineRange (finePulsePhase now errorDeg task).task := by
  rw [finePulsePhase]
  split_ifs
  · exact ⟨ending_beginBrake now errorDeg, hfine⟩
  · exact ⟨ending_applyTurn [] hturning (Or.inr hphase) rfl (by simp) rfl hfine.1
      (hfine.2.trans (by norm_num)), hfine⟩

theorem ending_settled (build : TurnBuild F) (imu : ImuSnapshot F) :
    Ending (· = task.segmentStartedMs) (settled build now imu errorDeg task) ∧
      FineRange (settled build now imu errorDeg task).task := by
  rw [settled]
  dsimp only
  split_ifs
  · exact ⟨.stopped (allStop_append_stopMotors stops_brakeMotors), hfine⟩
  · exact ⟨.stopped (allStop_append_stopMotors stops_brakeMotors), hfine⟩
  · exact ⟨.faulted rfl stops_brakeMotors, hfine⟩
  -- another fine pulse, to either side
  all_goals
    have hcleared : FineRange { task with settleSamples := 0 } := hfine
    have hpwm := fineRange_adaptFinePwm hcleared imu.yawDeg (absFloat errorDeg)
    exact ⟨ending_applyTurn brakeMotors hturning (Or.inr rfl) rfl stops_brakeMotors rfl hpwm.1
      (hpwm.2.trans (by norm_num)), hpwm⟩

theorem ending_brakePhase (build : TurnBuild F) (imu : ImuSnapshot F) :
    Ending (· = task.segmentStartedMs) (brakePhase build now imu errorDeg task) ∧
      FineRange (brakePhase build now imu errorDeg task).task := by
  have hsettled : ∀ samples, Ending (· = task.segmentStartedMs)
        (settled build now imu errorDeg { task with settleSamples := samples }) ∧
      FineRange (settled build now imu errorDeg { task with settleSamples := samples }).task :=
    fun samples => ending_settled hturning hfine now errorDeg build imu
  rw [brakePhase]
  split_ifs
  · exact hsettled _
  · exact ⟨.stopped allStop_brakeMotors, hfine⟩
  · exact hsettled _
  · exact ⟨.stopped allStop_brakeMotors, hfine⟩

/-- The turning part ends before the timeout, or with a fault. -/
theorem ending_turn [CFloat.WholeOrder F] (build : TurnBuild F) (imu : ImuSnapshot F) :
    Ending (now - · ≤ build.turnTimeoutMs) (turn build now imu task) ∧
      FineRange (turn build now imu task).task := by
  rw [turn]
  split_ifs with htimeout
  · exact ⟨.faulted rfl (by simp), hfine⟩
  · exact ⟨.faulted rfl (by simp), hfine⟩
  · have hintime : ∀ startedMs, startedMs = task.segmentStartedMs →
        now - startedMs ≤ build.turnTimeoutMs := by
      rintro startedMs rfl
      exact UInt32.not_lt.mp htimeout
    cases hphase : task.phase with
    | coarse =>
        obtain ⟨hending, hrange⟩ :=
          ending_coarsePhase hturning hfine now (task.targetDeg - imu.yawDeg) hphase
        exact ⟨hending.mono hintime, hrange⟩
    | brake =>
        obtain ⟨hending, hrange⟩ :=
          ending_brakePhase hturning hfine now (task.targetDeg - imu.yawDeg) build imu
        exact ⟨hending.mono hintime, hrange⟩
    | finePulse =>
        obtain ⟨hending, hrange⟩ :=
          ending_finePulsePhase hturning hfine now (task.targetDeg - imu.yawDeg) hphase
        exact ⟨hending.mono hintime, hrange⟩

end Phases

/-! ### The tests before the motor part -/

/-- The snapshot is one that the car may turn by. -/
def ImuReady {F : Type*} (imu : ImuSnapshot F) : Prop :=
  imu.state = .ready ∧ imu.ready = true ∧ imu.status = 0

theorem state_debounce {F : Type*} (sample : ButtonCommand) {task : ControlTask F} :
    (debounce sample task).2.state = task.state := by
  rw [debounce]
  split_ifs <;> rfl

/-- What the tests make of a task: a fault, a task that waits for the IMU, or, when all of
them are passed, a task that goes on. -/
theorem checkFaults_cases {F : Type*} (faultActive : Bool) (imu : ImuSnapshot F)
    (task : ControlTask F) :
    (checkFaults faultActive imu task).state = .fault ∨
      task.state ≠ .fault ∧ (checkFaults faultActive imu task).state = .waitImu ∨
      (faultActive = false ∧ imu.state = .ready ∧ imu.ready = true ∧ imu.status = 0) ∧
        (checkFaults faultActive imu task).state =
          if task.state = .waitImu then .idle else task.state := by
  rw [checkFaults]
  by_cases hactive : faultActive = true
  · rw [if_pos hactive]
    exact Or.inl rfl
  rw [if_neg hactive]
  by_cases hfault : imu.state = .fault ∨ imu.status ≠ 0
  · rw [if_pos hfault]
    exact Or.inl rfl
  rw [if_neg hfault]
  by_cases hready : imu.state ≠ .ready ∨ imu.ready = false
  · rw [if_pos hready]
    by_cases hturning : task.state.isTurning = true
    · rw [if_pos hturning]
      exact Or.inl rfl
    rw [if_neg hturning]
    by_cases hstate : task.state = .fault
    · rw [if_neg (not_not.mpr hstate)]
      exact Or.inl hstate
    · rw [if_pos hstate]
      exact Or.inr (Or.inl ⟨hstate, rfl⟩)
  · rw [if_neg hready]
    obtain ⟨hstate, hset⟩ := not_or.mp hready
    have himu : imu.state = .ready ∧ imu.ready = true ∧ imu.status = 0 :=
      ⟨not_not.mp hstate, Bool.not_eq_false _ ▸ hset, not_not.mp (not_or.mp hfault).2⟩
    refine Or.inr (Or.inr ⟨⟨Bool.eq_false_iff.mpr hactive, himu⟩, ?_⟩)
    split_ifs <;> rfl

section Tests

variable {F : Type*} [CFloat F] (build : TurnBuild F) (now : UInt32) (faultActive : Bool)
  (imu : ImuSnapshot F) (sample pressed : ButtonCommand) {task : ControlTask F}

omit [CFloat F] in
theorem fineRange_debounce (h : FineRange task) : FineRange (debounce sample task).2 := by
  rw [debounce]
  split_ifs <;> exact h

omit [CFloat F] in
theorem fineRange_checkFaults (h : FineRange task) :
    FineRange (checkFaults faultActive imu task) := by
  rw [checkFaults]
  split_ifs <;> exact h

theorem fineRange_startTurn (h : FineRange task) :
    FineRange (startTurn build now imu pressed task) := by
  have hinitial : 140 ≤ turnFinePwmInitial ∧ turnFinePwmInitial ≤ 260 := by decide
  rw [startTurn]
  split_ifs
  · cases pressed <;> exact hinitial
  · exact h

omit [CFloat F] in
/-- Nothing leads out of the fault state. -/
theorem fault_checkFaults (h : task.state = .fault) :
    (checkFaults faultActive imu task).state = .fault := by
  rcases checkFaults_cases faultActive imu task with hfault | ⟨hstate, -⟩ | ⟨-, hstate⟩
  · exact hfault
  · exact absurd h hstate
  · rw [hstate, h]
    rfl

/-- After the tests the car turns only without a fault and by a snapshot that is ready. -/
theorem isTurning_startTurn
    (h : (startTurn build now imu pressed
      (checkFaults faultActive imu task)).state.isTurning = true) :
    faultActive = false ∧ ImuReady imu := by
  rcases checkFaults_cases faultActive imu task with hfault | ⟨-, hwait⟩ | ⟨hpassed, -⟩
  · rw [startTurn, if_neg (by simp [hfault]), hfault] at h
    cases h
  · rw [startTurn, if_neg (by simp [hwait]), hwait] at h
    cases h
  · exact hpassed

theorem fault_startTurn (h : task.state = .fault) :
    (startTurn build now imu pressed task).state = .fault := by
  rw [startTurn, if_neg (by simp [h]), h]

end Tests

/-! ### An iteration -/

/-- An iteration ends with a turn, and has passed its tests. -/
structure Drives {F : Type*} (build : TurnBuild F) (i : TurnInput F) (faultActive : Bool)
    (d : Decision F) : Prop where
  turns : Turns d
  noFault : faultActive = false
  imu : ImuReady i.imu
  elapsed : i.now - d.task.segmentStartedMs ≤ build.turnTimeoutMs

theorem Turns.state_ne_fault {F : Type*} {d : Decision F} (h : Turns d) :
    d.task.state ≠ .fault := by
  intro hfault
  have hstate := h.state
  rw [hfault] at hstate
  cases hstate

section Drive

variable {F : Type*} [CFloat F] (build : TurnBuild F) (now : UInt32) (imu : ImuSnapshot F)
  {task : ControlTask F}

/-- Outside the turning states the motor part stops both wheels. -/
theorem drive_of_not_turning (h : task.state.isTurning = false) :
    AllStop (drive build now imu task).calls ∧
      (FineRange task → FineRange (drive build now imu task).task) ∧
      (task.state = .fault → (drive build now imu task).task.state = .fault) := by
  have hnone : ∀ c ∈ ([] : List MotorCall), Stops c := by simp
  have hstops := allStop_append_stopMotors hnone
  have hstopsTwice := allStop_append_stopMotors stops_stopMotors
  have hinitial : 140 ≤ turnFinePwmInitial ∧ turnFinePwmInitial ≤ 260 := by decide
  rw [drive]
  simp only [h, Bool.false_eq_true, if_false]
  by_cases hpause : task.state = .sequencePause
  · have hrange : FineRange task → FineRange (sequencePause build now imu task).task := by
      intro hfine
      rw [sequencePause]
      split_ifs
      · exact hinitial
      · exact hfine
    rw [if_pos hpause]
    refine ⟨?_, ?_, fun hfault => absurd (hpause.symm.trans hfault) (by decide)⟩
    · split_ifs
      · exact hstopsTwice
      · exact hstops
    · split_ifs <;> exact hrange
  · rw [if_neg hpause]
    by_cases hfault : task.state = .fault
    · rw [if_pos hfault]
      exact ⟨hstopsTwice, id, id⟩
    · rw [if_neg hfault]
      exact ⟨hstops, id, id⟩

/-- In the turning states it stops both wheels or turns the car; with a fault it stops them. -/
theorem drive_of_turning [CFloat.WholeOrder F] (hturning : task.state.isTurning = true)
    (h : FineRange task) :
    (AllStop (drive build now imu task).calls ∨
        Turns (drive build now imu task) ∧
          now - (drive build now imu task).task.segmentStartedMs ≤ build.turnTimeoutMs) ∧
      FineRange (drive build now imu task).task := by
  obtain ⟨hending, hrange⟩ := ending_turn hturning h now build imu
  rw [drive]
  simp only [hturning, if_true]
  by_cases hfault : (turn build now imu task).task.state = .fault
  · rw [if_pos hfault]
    refine ⟨Or.inl ?_, hrange⟩
    cases hending with
    | faulted _ hstops => exact allStop_append_stopMotors hstops
    | stopped hstop => exact allStop_append_stopMotors hstop.stops
    | turned hturns _ => exact absurd hfault hturns.state_ne_fault
  · rw [if_neg hfault]
    refine ⟨?_, hrange⟩
    cases hending with
    | faulted hstate _ => exact absurd hstate hfault
    | stopped hstop => exact Or.inl hstop
    | turned hturns helapsed => exact Or.inr ⟨hturns, helapsed⟩

end Drive

section Decision

variable {F : Type*} [CFloat F] (build : TurnBuild F) (i : TurnInput F) {s : TurnSystem F}

/-- Every iteration stops both wheels or turns the car. -/
theorem decision_cases [CFloat.WholeOrder F] (h : FineRange s.task) :
    (AllStop (decision build i s).calls ∨
        Drives build i (systemFaultIsActive s.supervisor.fault) (decision build i s)) ∧
      FineRange (decision build i s).task := by
  rw [decision]
  have hdebounced := fineRange_debounce (readButtons i.cw i.ccw i.sequence) h
  generalize debounce (readButtons i.cw i.ccw i.sequence) s.task = debounced at hdebounced ⊢
  obtain ⟨pressed, task⟩ := debounced
  have hrange := fineRange_startTurn build i.now i.imu pressed
    (fineRange_checkFaults (systemFaultIsActive s.supervisor.fault) i.imu hdebounced)
  dsimp only
  cases hturning : (startTurn build i.now i.imu pressed
    (checkFaults (systemFaultIsActive s.supervisor.fault) i.imu task)).state.isTurning with
  | false =>
      obtain ⟨hstop, hkept, -⟩ := drive_of_not_turning build i.now i.imu hturning
      exact ⟨Or.inl hstop, hkept hrange⟩
  | true =>
      obtain ⟨hnoFault, himu⟩ := isTurning_startTurn build i.now _ i.imu pressed hturning
      obtain ⟨hstop | ⟨hturns, helapsed⟩, hkept⟩ :=
        drive_of_turning build i.now i.imu hturning hrange
      · exact ⟨Or.inl hstop, hkept⟩
      · exact ⟨Or.inr ⟨hturns, hnoFault, himu, helapsed⟩, hkept⟩

theorem decision_of_fault (h : s.task.state = .fault) :
    (decision build i s).task.state = .fault := by
  rw [decision]
  have hdebounced := (state_debounce (readButtons i.cw i.ccw i.sequence)).trans h
  generalize debounce (readButtons i.cw i.ccw i.sequence) s.task = debounced at hdebounced ⊢
  obtain ⟨pressed, task⟩ := debounced
  have hstarted := fault_startTurn build i.now i.imu pressed
    (fault_checkFaults (systemFaultIsActive s.supervisor.fault) i.imu hdebounced)
  dsimp only
  refine (drive_of_not_turning build i.now i.imu ?_).2.2 hstarted
  rw [hstarted]
  rfl

end Decision

end NuedcFirmware.Tests.TurnSafety
