import NuedcFirmware.Tests.TurnDecision

/-!
The transitions of the turn controller.

An iteration first settles which turn there is, if any (`Prepares`), by the tests for faults
and by the button; then the motor part takes the turn one step on (`Moves`). Both relations
say of the variables that count for a turn all that can happen to them, so that nothing
about whole runs has to look into the code again.
-/

namespace NuedcFirmware.Tests.TurnTransition

open NuedcFirmware.Lib NuedcFirmware.Modules TurnSafety

variable {F : Type*}

/-- The variables of a turn are the same; the state and what belongs to the buttons may
differ. -/
structure SameTurn (task task' : ControlTask F) : Prop where
  phase : task'.phase = task.phase
  targetDeg : task'.targetDeg = task.targetDeg
  settleSamples : task'.settleSamples = task.settleSamples
  phaseStartedMs : task'.phaseStartedMs = task.phaseStartedMs
  segmentStartedMs : task'.segmentStartedMs = task.segmentStartedMs
  finePwm : task'.finePwm = task.finePwm
  fineAttempts : task'.fineAttempts = task.fineAttempts

theorem SameTurn.trans {task task' task'' : ControlTask F} (h : SameTurn task task')
    (h' : SameTurn task' task'') : SameTurn task task'' :=
  ⟨h'.phase.trans h.phase, h'.targetDeg.trans h.targetDeg,
    h'.settleSamples.trans h.settleSamples, h'.phaseStartedMs.trans h.phaseStartedMs,
    h'.segmentStartedMs.trans h.segmentStartedMs, h'.finePwm.trans h.finePwm,
    h'.fineAttempts.trans h.fineAttempts⟩

/-- States in which there is no turn, and none has been done. -/
def Resting (state : TurnState) : Prop := state = .fault ∨ state = .waitImu ∨ state = .idle

section Tests

variable (imu : ImuSnapshot F) (faultActive : Bool) (sample : ButtonCommand) (task : ControlTask F)

theorem sameTurn_debounce : SameTurn task (debounce sample task).2 := by
  rw [debounce]
  split_ifs <;> exact ⟨rfl, rfl, rfl, rfl, rfl, rfl, rfl⟩

theorem sameTurn_checkFaults : SameTurn task (checkFaults faultActive imu task) := by
  rw [checkFaults]
  split_ifs <;> exact ⟨rfl, rfl, rfl, rfl, rfl, rfl, rfl⟩

/-- The tests keep the state, or leave one without a turn. -/
theorem state_checkFaults :
    (checkFaults faultActive imu task).state = task.state ∨
      Resting (checkFaults faultActive imu task).state := by
  rcases checkFaults_cases faultActive imu task with hfault | ⟨-, hwait⟩ | ⟨-, hstate⟩
  · exact Or.inr (Or.inl hfault)
  · exact Or.inr (Or.inr (Or.inl hwait))
  · rw [hstate]
    split_ifs
    · exact Or.inr (Or.inr (Or.inr rfl))
    · exact Or.inl rfl

/-- A turn can begin only where there is none. -/
theorem resting_of_checkFaults
    (h : (checkFaults faultActive imu task).state = .idle ∨
      (checkFaults faultActive imu task).state = .done) :
    Resting task.state ∨ task.state = .done := by
  rcases checkFaults_cases faultActive imu task with hfault | ⟨-, hwait⟩ | ⟨-, hstate⟩
  · rw [hfault] at h
    rcases h with h | h <;> cases h
  · rw [hwait] at h
    rcases h with h | h <;> cases h
  · by_cases hwait : task.state = .waitImu
    · exact Or.inl (Or.inr (Or.inl hwait))
    · rw [hstate, if_neg hwait] at h
      exact h.imp_left fun hidle => Or.inr (Or.inr hidle)

end Tests

variable [CFloat F]

/-- The first turn of a button begins. -/
structure Starts (build : TurnBuild F) (now : UInt32) (yawDeg : F) (task : ControlTask F) :
    Prop where
  state : task.state = .cw ∨ task.state = .ccw ∨ task.state = .sequenceCw
  target : task.state = .sequenceCw → task.targetDeg = yawDeg - build.turnAngleDeg
  phase : task.phase = .coarse
  settleSamples : task.settleSamples = 0
  segmentStartedMs : task.segmentStartedMs = now
  finePwm : task.finePwm = turnFinePwmInitial
  fineAttempts : task.fineAttempts = 0

/-- Of a sequence, it is the first turn. -/
theorem Starts.first {build : TurnBuild F} {now : UInt32} {yawDeg : F} {task : ControlTask F}
    (h : Starts build now yawDeg task)
    (hsequence : task.state = .sequenceCw ∨ task.state = .sequencePause ∨
      task.state = .sequenceCcw) : task.state = .sequenceCw := by
  rcases h.state with hstate | hstate | hstate
  · rw [hstate] at hsequence
    rcases hsequence with h | h | h <;> cases h
  · rw [hstate] at hsequence
    rcases hsequence with h | h | h <;> cases h
  · exact hstate

/-- What the tests and the button make of the variables. -/
inductive Prepares (build : TurnBuild F) (now : UInt32) (imu : ImuSnapshot F)
    (task task' : ControlTask F) : Prop
  | kept : task'.state = task.state → SameTurn task task' → Prepares build now imu task task'
  | halted : Resting task'.state → SameTurn task task' → Prepares build now imu task task'
  | started : Resting task.state ∨ task.state = .done → Starts build now imu.yawDeg task' →
      Prepares build now imu task task'

section Prepare

variable (build : TurnBuild F) (now : UInt32) (imu : ImuSnapshot F) (faultActive : Bool)
  (sample pressed : ButtonCommand) (task : ControlTask F)

theorem startTurn_cases :
    startTurn build now imu pressed task = task ∨
      (task.state = .idle ∨ task.state = .done) ∧
        Starts build now imu.yawDeg (startTurn build now imu pressed task) := by
  rw [startTurn]
  split_ifs with h
  · refine Or.inr ⟨h.1, ?_⟩
    cases pressed with
    | none => exact absurd rfl h.2.1
    | cw =>
        refine ⟨Or.inl rfl, fun hstate => ?_, rfl, rfl, rfl, rfl, rfl⟩
        cases hstate
    | ccw =>
        refine ⟨Or.inr (Or.inl rfl), fun hstate => ?_, rfl, rfl, rfl, rfl, rfl⟩
        cases hstate
    | sequence => exact ⟨Or.inr (Or.inr rfl), fun _ => rfl, rfl, rfl, rfl, rfl, rfl⟩
  · exact Or.inl rfl

theorem prepares :
    Prepares build now imu task
      (startTurn build now imu pressed
        (checkFaults faultActive imu (debounce sample task).2)) := by
  have hstate : (debounce sample task).2.state = task.state := state_debounce sample
  have hsame := (sameTurn_debounce sample task).trans
    (sameTurn_checkFaults imu faultActive _)
  have hchecked := state_checkFaults imu faultActive (debounce sample task).2
  rw [hstate] at hchecked
  rcases startTurn_cases build now imu pressed
    (checkFaults faultActive imu (debounce sample task).2) with hkept | ⟨hfrom, hstarts⟩
  · rw [hkept]
    exact hchecked.elim (fun h => .kept h hsame) fun h => .halted h hsame
  · refine .started ?_ hstarts
    rw [← hstate]
    exact resting_of_checkFaults imu faultActive _ hfrom

end Prepare

theorem Resting.not_turning {state : TurnState} (h : Resting state) : state.isTurning = false := by
  rcases h with rfl | rfl | rfl <;> rfl

/-- A turn goes on, or begins where there has been none. -/
theorem Prepares.of_turning {build : TurnBuild F} {now : UInt32} {imu : ImuSnapshot F}
    {task task' : ControlTask F} (h : Prepares build now imu task task')
    (hturning : task'.state.isTurning = true) :
    task'.state = task.state ∧ SameTurn task task' ∨
      (Resting task.state ∨ task.state = .done) ∧ Starts build now imu.yawDeg task' := by
  cases h with
  | kept hstate hsame => exact Or.inl ⟨hstate, hsame⟩
  | halted hrest _ =>
      rw [hrest.not_turning] at hturning
      cases hturning
  | started hfrom hstarts => exact Or.inr ⟨hfrom, hstarts⟩

/-- The end of a turn is only kept. -/
theorem Prepares.of_over {build : TurnBuild F} {now : UInt32} {imu : ImuSnapshot F}
    {task task' : ControlTask F} (h : Prepares build now imu task task')
    (hover : task'.state = .done ∨ task'.state = .sequencePause) :
    task'.state = task.state ∧ SameTurn task task' := by
  cases h with
  | kept hstate hsame => exact ⟨hstate, hsame⟩
  | halted hrest _ =>
      rcases hover with hover | hover
      · rw [hover] at hrest
        rcases hrest with h | h | h <;> cases h
      · rw [hover] at hrest
        rcases hrest with h | h | h <;> cases h
  | started _ hstarts =>
      have hstate := hstarts.state
      rcases hover with hover | hover
      · rw [hover] at hstate
        rcases hstate with h | h | h <;> cases h
      · rw [hover] at hstate
        rcases hstate with h | h | h <;> cases h

/-! ### The motor part -/

/-- A sample that counts for the end of the brake phase. -/
def AtRest (now : UInt32) (imu : ImuSnapshot F) (task : ControlTask F) : Prop :=
  now - task.phaseStartedMs ≥ turnBrakeMinMs ∧ absFloat imu.gyroDps.2.2 ≤ turnSettleRateDps

/-- What a turn is given before its first movement. -/
structure Resumes (build : TurnBuild F) (now : UInt32) (task task' : ControlTask F) : Prop where
  state : task'.state = .sequenceCcw
  target : task'.targetDeg = task.targetDeg + build.turnAngleDeg
  phase : task'.phase = .coarse
  segmentStartedMs : task'.segmentStartedMs = now
  finePwm : task'.finePwm = turnFinePwmInitial
  fineAttempts : task'.fineAttempts = 0

/-- Another fine pulse follows. -/
structure Pulses (build : TurnBuild F) (task task' : ControlTask F) : Prop where
  state : task'.state = task.state
  target : task'.targetDeg = task.targetDeg
  phase : task'.phase = .finePulse
  segmentStartedMs : task'.segmentStartedMs = task.segmentStartedMs
  finePwm : FineRange task → FineRange task'
  before : task.fineAttempts < build.turnFineMaxAttempts
  fineAttempts : task'.fineAttempts = task.fineAttempts + 1

/-- What the motor part makes of the variables. The five last cases are those of a turn that
is in time. -/
inductive Moves (build : TurnBuild F) (now : UInt32) (imu : ImuSnapshot F)
    (task task' : ControlTask F) : Prop
  | rests : task.state.isTurning = false → task' = task → Moves build now imu task task'
  | resumes : task.state = .sequencePause → Resumes build now task task' →
      Moves build now imu task task'
  | faults (status : ℤ) (samples : ℕ) : task.state.isTurning = true →
      task' = { task with state := .fault, faultStatus := status, settleSamples := samples } →
      Moves build now imu task task'
  | turns : task.state.isTurning = true → now - task.segmentStartedMs ≤ build.turnTimeoutMs →
      task.phase ≠ .brake → task' = task → Moves build now imu task task'
  | brakes : task.state.isTurning = true → now - task.segmentStartedMs ≤ build.turnTimeoutMs →
      task.phase ≠ .brake →
      task' = { task with phase := .brake, phaseStartedMs := now, settleSamples := 0 } →
      Moves build now imu task task'
  | waits (samples : ℕ) : task.state.isTurning = true →
      now - task.segmentStartedMs ≤ build.turnTimeoutMs → task.phase = .brake →
      (samples = 0 ∨ AtRest now imu task ∧ samples = task.settleSamples + 1) →
      task' = { task with settleSamples := samples } → Moves build now imu task task'
  | arrives : task.state.isTurning = true →
      now - task.segmentStartedMs ≤ build.turnTimeoutMs → task.phase = .brake →
      AtRest now imu task → turnSettleSamples ≤ task.settleSamples + 1 →
      absFloat (task.targetDeg - imu.yawDeg) ≤ build.turnPrecisionDeg →
      (task' = { task with settleSamples := 0, state := .done } ∨
        task.state = .sequenceCw ∧
          task' =
            { task with settleSamples := 0, state := .sequencePause, phaseStartedMs := now }) →
      Moves build now imu task task'
  | pulses : task.state.isTurning = true →
      now - task.segmentStartedMs ≤ build.turnTimeoutMs → task.phase = .brake →
      Pulses build task task' → Moves build now imu task task'

/-- A turn that is in time goes on. -/
structure GoesOn (build : TurnBuild F) (now : UInt32) (task task' : ControlTask F) : Prop where
  turning : task.state.isTurning = true
  inTime : now - task.segmentStartedMs ≤ build.turnTimeoutMs
  state : task'.state = task.state
  target : task'.targetDeg = task.targetDeg
  segmentStartedMs : task'.segmentStartedMs = task.segmentStartedMs

section Moved

variable {build : TurnBuild F} {now : UInt32} {imu : ImuSnapshot F} {task task' : ControlTask F}
  (h : Moves build now imu task task')
include h

/-- The motor part leaves a turn that it has found, or the second one of a sequence. -/
theorem Moves.of_turning (hturning : task'.state.isTurning = true) :
    task.state = .sequencePause ∧ Resumes build now task task' ∨ GoesOn build now task task' := by
  cases h with
  | rests hnot htask =>
      rw [htask, hnot] at hturning
      cases hturning
  | resumes hpause hresumes => exact Or.inl ⟨hpause, hresumes⟩
  | faults status samples _ htask =>
      rw [htask] at hturning
      cases hturning
  | turns hbefore htime _ htask =>
      subst htask
      exact Or.inr ⟨hbefore, htime, rfl, rfl, rfl⟩
  | brakes hbefore htime _ htask =>
      subst htask
      exact Or.inr ⟨hbefore, htime, rfl, rfl, rfl⟩
  | waits samples hbefore htime _ _ htask =>
      subst htask
      exact Or.inr ⟨hbefore, htime, rfl, rfl, rfl⟩
  | arrives _ _ _ _ _ _ htask =>
      rcases htask with htask | ⟨-, htask⟩
      · rw [htask] at hturning
        cases hturning
      · rw [htask] at hturning
        cases hturning
  | pulses hbefore htime _ hpulses =>
      exact Or.inr ⟨hbefore, htime, hpulses.state, hpulses.target, hpulses.segmentStartedMs⟩

/-- The end of a turn is one that the motor part has found, or it arrives. -/
theorem Moves.of_over (hover : task'.state = .done ∨ task'.state = .sequencePause) :
    task' = task ∨
      (task.state.isTurning = true ∧ task.phase = .brake ∧ AtRest now imu task ∧
          turnSettleSamples ≤ task.settleSamples + 1 ∧
          absFloat (task.targetDeg - imu.yawDeg) ≤ build.turnPrecisionDeg) ∧
        task'.targetDeg = task.targetDeg ∧
        (task'.state = .sequencePause → task.state = .sequenceCw) := by
  have hgoes : task.state.isTurning = true → task'.state ≠ task.state := by
    intro hbefore hstate
    rw [← hstate] at hbefore
    rcases hover with hover | hover
    · rw [hover] at hbefore
      cases hbefore
    · rw [hover] at hbefore
      cases hbefore
  cases h with
  | rests _ htask => exact Or.inl htask
  | resumes _ hresumes =>
      rw [hresumes.state] at hover
      rcases hover with hover | hover <;> cases hover
  | faults _ _ _ htask =>
      rw [htask] at hover
      rcases hover with hover | hover <;> cases hover
  | turns _ _ _ htask => exact Or.inl htask
  | brakes hbefore _ _ htask => exact absurd (by rw [htask]) (hgoes hbefore)
  | waits _ hbefore _ _ _ htask => exact absurd (by rw [htask]) (hgoes hbefore)
  | arrives hbefore _ hbrake hrest hsettled hnear htask =>
      refine Or.inr ⟨⟨hbefore, hbrake, hrest, hsettled, hnear⟩, ?_⟩
      rcases htask with htask | ⟨hfirst, htask⟩
      · rw [htask]
        exact ⟨rfl, fun hpause => by cases hpause⟩
      · rw [htask]
        exact ⟨rfl, fun _ => hfirst⟩
  | pulses hbefore _ _ hpulses => exact absurd hpulses.state (hgoes hbefore)

end Moved

section Move

variable (build : TurnBuild F) (now : UInt32) (imu : ImuSnapshot F) {task : ControlTask F}

variable (hturning : task.state.isTurning = true)
  (htime : now - task.segmentStartedMs ≤ build.turnTimeoutMs)
include hturning htime

theorem moves_settled (hphase : task.phase = .brake) (hrest : AtRest now imu task)
    (hsettled : turnSettleSamples ≤ task.settleSamples + 1) :
    Moves build now imu task
      (settled build now imu (task.targetDeg - imu.yawDeg)
        { task with settleSamples := task.settleSamples + 1 }).task := by
  rw [settled]
  by_cases hnear : absFloat (task.targetDeg - imu.yawDeg) ≤ build.turnPrecisionDeg
  · rw [if_pos hnear]
    refine .arrives hturning htime hphase hrest hsettled hnear ?_
    by_cases hsequence : task.state = .sequenceCw
    · exact Or.inr ⟨hsequence, if_pos hsequence⟩
    · exact Or.inl (if_neg hsequence)
  · rw [if_neg hnear]
    by_cases hmax : task.fineAttempts ≥ build.turnFineMaxAttempts
    · rw [if_pos hmax]
      exact .faults (-6) 0 hturning rfl
    · rw [if_neg hmax]
      refine .pulses hturning htime hphase ⟨rfl, rfl, rfl, rfl, fun hfine => ?_, by omega, rfl⟩
      have hcleared : FineRange { task with settleSamples := 0 } := hfine
      exact fineRange_adaptFinePwm hcleared imu.yawDeg (absFloat (task.targetDeg - imu.yawDeg))

theorem moves_brakePhase (hphase : task.phase = .brake) :
    Moves build now imu task
      (brakePhase build now imu (task.targetDeg - imu.yawDeg) task).task := by
  rw [brakePhase]
  by_cases hrest : AtRest now imu task
  · have hcounted : (if now - task.phaseStartedMs ≥ turnBrakeMinMs ∧
          absFloat imu.gyroDps.2.2 ≤ turnSettleRateDps then
          { task with settleSamples := task.settleSamples + 1 }
        else { task with settleSamples := 0 }) =
        { task with settleSamples := task.settleSamples + 1 } := if_pos hrest
    rw [hcounted]
    by_cases hsettled : task.settleSamples + 1 ≥ turnSettleSamples
    · rw [if_pos hsettled]
      exact moves_settled build now imu hturning htime hphase hrest hsettled
    · rw [if_neg hsettled]
      exact .waits _ hturning htime hphase (Or.inr ⟨hrest, rfl⟩) rfl
  · have hcleared : (if now - task.phaseStartedMs ≥ turnBrakeMinMs ∧
          absFloat imu.gyroDps.2.2 ≤ turnSettleRateDps then
          { task with settleSamples := task.settleSamples + 1 }
        else { task with settleSamples := 0 }) = { task with settleSamples := 0 } :=
      if_neg hrest
    rw [hcleared, if_neg (show ¬ 0 ≥ turnSettleSamples by decide)]
    exact .waits 0 hturning htime hphase (Or.inl rfl) rfl

omit htime in
theorem moves_turn : Moves build now imu task (turn build now imu task).task := by
  rw [turn]
  by_cases htimeout : now - task.segmentStartedMs > build.turnTimeoutMs
  · rw [if_pos htimeout]
    exact .faults (-2) task.settleSamples hturning rfl
  rw [if_neg htimeout]
  have htime := UInt32.not_lt.mp htimeout
  split_ifs
  · exact .faults (-3) task.settleSamples hturning rfl
  cases hphase : task.phase with
  | coarse =>
      have hnot : task.phase ≠ .brake := by
        rw [hphase]
        decide
      dsimp only
      rw [coarsePhase]
      split_ifs
      · exact .brakes hturning htime hnot rfl
      · exact .turns hturning htime hnot rfl
  | brake => exact moves_brakePhase build now imu hturning htime hphase
  | finePulse =>
      have hnot : task.phase ≠ .brake := by
        rw [hphase]
        decide
      dsimp only
      rw [finePulsePhase]
      split_ifs
      · exact .brakes hturning htime hnot rfl
      · exact .turns hturning htime hnot rfl

omit hturning htime in
/-- The stop that a fault adds at the end does not change the variables. -/
theorem moves_drive : Moves build now imu task (drive build now imu task).task := by
  have hstop : ∀ d : Decision F,
      (if d.task.state = .fault then { d with calls := d.calls ++ stopMotors } else d).task =
        d.task := fun d => by split_ifs <;> rfl
  rw [drive, hstop]
  by_cases hturning : task.state.isTurning = true
  · rw [if_pos hturning]
    exact moves_turn build now imu hturning
  rw [if_neg hturning]
  have hnot := Bool.eq_false_iff.mpr hturning
  by_cases hpause : task.state = .sequencePause
  · rw [if_pos hpause, sequencePause]
    dsimp only
    split_ifs
    · exact .resumes hpause ⟨rfl, rfl, rfl, rfl, rfl, rfl⟩
    · exact .rests hnot rfl
  · rw [if_neg hpause]
    exact .rests hnot rfl

end Move

/-- An iteration prepares the variables, and moves them. -/
theorem decision_moves (build : TurnBuild F) (i : TurnInput F) (s : TurnSystem F) :
    ∃ task, Prepares build i.now i.imu s.task task ∧
      Moves build i.now i.imu task (decision build i s).task :=
  ⟨_, prepares build i.now i.imu _ _ _ _, moves_drive build i.now i.imu⟩

end NuedcFirmware.Tests.TurnTransition
