import NuedcFirmware.Lib.Since
import NuedcFirmware.Lib.Streak
import NuedcFirmware.Tests.TurnSafety
import NuedcFirmware.Tests.TurnTransition

/-!
A turn is reported done only when it is.

What the controller knows about the past is in its variables: when the brake phase and the
segment began, how many samples at rest there have been in a row, and which yaw a sequence
is to end at. Over a run each of them says what it should, by one step lemma for the states
it belongs to.
-/

namespace NuedcFirmware.Tests.TurnDone

open NuedcFirmware.Lib NuedcFirmware.Platform NuedcFirmware.Modules TurnSafety TurnTransition

section Statements

variable {F : Type*}

def Turning (s : TurnSystem F) : Prop := s.task.state.isTurning = true

def Braking (s : TurnSystem F) : Prop := Turning s ∧ s.task.phase = .brake

def InSequence (s : TurnSystem F) : Prop :=
  s.task.state = .sequenceCw ∨ s.task.state = .sequencePause ∨ s.task.state = .sequenceCcw

def isIteration (_ : TurnSystem F) : TurnEvent F → Bool
  | .control _ => true
  | .faultRaise .. => false

variable [CFloat F]

/-- While the car brakes, an iteration finds it at rest, long enough after the start. -/
def QuietBraking (startedMs : UInt32) (s : TurnSystem F) (e : TurnEvent F) : Prop :=
  Braking s ∧ ∀ i, e = .control i → absFloat i.imu.gyroDps.2.2 ≤ 1.0 ∧ 120 ≤ i.now - startedMs

variable {ι : Type*} (build : TurnBuild F) (P : TurnSystem F → Prop) (reads : TurnInput F → ι)

/-- With this event, an iteration that reads the value, a kind of states begins. -/
def Begins (value : ι) (s : TurnSystem F) (e : TurnEvent F) : Prop :=
  ¬ P s ∧ P (step build s e) ∧ ∃ i, e = .control i ∧ reads i = value

/-- The run has been in the kind of states since an iteration that read the value. -/
def LastsSince (b : Board) (run : List (TurnEvent F)) (value : ι) : Prop :=
  Since (step build) (Begins build P reads value) (fun s _ => P s) (start b) run

variable (b : Board) (run : List (TurnEvent F)) (i : TurnInput F) (s s' : TurnSystem F)

/-- What holds of an iteration `i` after a run from the start: when a turn is over, that it
really is, and while there is one, that it is in time. -/
structure Reports : Prop where
  done : (s'.task.state = .done ∨ s'.task.state = .sequencePause) →
    s.task.state ≠ s'.task.state →
    absFloat (s'.task.targetDeg - i.imu.yawDeg) ≤ build.turnPrecisionDeg ∧
      ∃ startedMs, LastsSince build Braking TurnInput.now b (run ++ [.control i]) startedMs ∧
        Streak (step build) (QuietBraking startedMs) (fun s e => isIteration s e) (start b)
          (run ++ [.control i]) 15
  inTime : Turning s' →
    ∃ startedMs, LastsSince build Turning TurnInput.now b (run ++ [.control i]) startedMs ∧
      i.now - startedMs ≤ build.turnTimeoutMs

/-- The last turn of a sequence has the target that `yawDeg` gives for the iteration that
began the sequence. -/
def SequenceEndsAt (yawDeg : TurnInput F → F) : Prop :=
  s.task.state = .sequenceCcw ∨ s'.task.state = .sequenceCcw →
    LastsSince build InSequence yawDeg b (run ++ [.control i]) s'.task.targetDeg

/-- The fine pulses stay within their number and their duties. -/
structure FineBounded (task : ControlTask F) : Prop where
  attempts : task.fineAttempts ≤ build.turnFineMaxAttempts
  range : FineRange task

end Statements

variable {F : Type*} [CFloat F]

section Step

variable (build : TurnBuild F) {i : TurnInput F} {s : TurnSystem F}

variable (i s) in
theorem controlTask_moves :
    ∃ task, Prepares build i.now i.imu s.task task ∧
      Moves build i.now i.imu task (controlTask build i s).task := by
  rw [task_controlTask]
  exact decision_moves build i s

omit [CFloat F] in
/-- A task that is resting or done is not in a turn. -/
theorem not_turning_of_start (h : Resting s.task.state ∨ s.task.state = .done) : ¬ Turning s := by
  intro hturning
  rw [Turning] at hturning
  rcases h with h | h
  · rw [h.not_turning] at hturning
    cases hturning
  · rw [h] at hturning
    cases hturning

/-- In the brake phase after an iteration, it has just begun, or its samples have been
counted on. -/
theorem braking_controlTask (h : Braking (controlTask build i s)) :
    ¬ Braking s ∧ (controlTask build i s).task.phaseStartedMs = i.now ∧
        (controlTask build i s).task.settleSamples = 0 ∨
      Braking s ∧ (controlTask build i s).task.phaseStartedMs = s.task.phaseStartedMs ∧
        ((controlTask build i s).task.settleSamples = 0 ∨
          AtRest i.now i.imu s.task ∧
            (controlTask build i s).task.settleSamples = s.task.settleSamples + 1) := by
  obtain ⟨task, hprepares, hmoves⟩ := controlTask_moves build i s
  obtain ⟨hturning, hphase⟩ := h
  rw [Turning] at hturning
  cases hmoves with
  | rests hnot htask =>
      rw [htask, hnot] at hturning
      cases hturning
  | resumes _ hresumes =>
      rw [hresumes.phase] at hphase
      cases hphase
  | faults status samples _ htask =>
      rw [htask] at hturning
      cases hturning
  | turns _ _ hnot htask =>
      rw [htask] at hphase
      exact absurd hphase hnot
  | brakes hbefore _ hnot htask =>
      rw [htask]
      refine Or.inl ⟨fun hbraking => ?_, rfl, rfl⟩
      rcases hprepares.of_turning hbefore with ⟨-, hsame⟩ | ⟨hfrom, -⟩
      · exact hnot (hsame.phase.trans hbraking.2)
      · exact not_turning_of_start hfrom hbraking.1
  | waits samples hbefore _ hbrake hsamples htask =>
      rcases hprepares.of_turning hbefore with ⟨hstate, hsame⟩ | ⟨-, hstarts⟩
      · rw [hstate] at hbefore
        have hbraking : Braking s := ⟨hbefore, hsame.phase.symm.trans hbrake⟩
        rw [htask]
        refine Or.inr ⟨hbraking, hsame.phaseStartedMs, hsamples.imp_right ?_⟩
        rintro ⟨hrest, rfl⟩
        rw [AtRest, hsame.phaseStartedMs] at hrest
        exact ⟨hrest, congrArg (· + 1) hsame.settleSamples⟩
      · rw [hstarts.phase] at hbrake
        cases hbrake
  | arrives _ _ _ _ _ _ htask =>
      rcases htask with htask | ⟨-, htask⟩
      · rw [htask] at hturning
        cases hturning
      · rw [htask] at hturning
        cases hturning
  | pulses _ _ _ hpulses =>
      rw [hpulses.phase] at hphase
      cases hphase

/-- In a turn after an iteration, its segment is in time, and has just begun or gone on. -/
theorem turning_controlTask (h : Turning (controlTask build i s)) :
    i.now - (controlTask build i s).task.segmentStartedMs ≤ build.turnTimeoutMs ∧
      (¬ Turning s ∧ (controlTask build i s).task.segmentStartedMs = i.now ∨
        Turning s ∧
          (controlTask build i s).task.segmentStartedMs = s.task.segmentStartedMs) := by
  obtain ⟨task, hprepares, hmoves⟩ := controlTask_moves build i s
  rcases hmoves.of_turning h with ⟨hpause, hresumes⟩ | hgoes
  · have hstate := (hprepares.of_over (Or.inr hpause)).1
    rw [hpause] at hstate
    rw [hresumes.segmentStartedMs, UInt32.sub_self]
    refine ⟨UInt32.zero_le, Or.inl ⟨fun hturning => ?_, rfl⟩⟩
    rw [Turning, ← hstate] at hturning
    cases hturning
  · have hbefore := hgoes.turning
    rw [hgoes.segmentStartedMs]
    refine ⟨hgoes.inTime, ?_⟩
    rcases hprepares.of_turning hbefore with ⟨hstate, hsame⟩ | ⟨hfrom, hstarts⟩
    · rw [hstate] at hbefore
      exact Or.inr ⟨hbefore, hsame.segmentStartedMs⟩
    · exact Or.inl ⟨not_turning_of_start hfrom, hstarts.segmentStartedMs⟩

/-- The target that the sequence ends with. -/
def finalTarget (build : TurnBuild F) (s : TurnSystem F) : F :=
  if s.task.state = .sequenceCcw then s.task.targetDeg
  else s.task.targetDeg + build.turnAngleDeg

omit [CFloat F] in
theorem not_inSequence_of_start (h : Resting s.task.state ∨ s.task.state = .done) :
    ¬ InSequence s := by
  intro hsequence
  rw [InSequence] at hsequence
  rcases h with (h | h | h) | h <;> rw [h] at hsequence <;>
    rcases hsequence with h | h | h <;> cases h

theorem finalTarget_congr {s' : TurnSystem F} (hstate : s'.task.state = s.task.state)
    (htarget : s'.task.targetDeg = s.task.targetDeg) :
    finalTarget build s' = finalTarget build s := by
  rw [finalTarget, finalTarget, hstate, htarget]

theorem sequence_of_turning (hturning : Turning (controlTask build i s))
    (h : InSequence (controlTask build i s)) :
    ¬ InSequence s ∧ finalTarget build (controlTask build i s) =
        i.imu.yawDeg - build.turnAngleDeg + build.turnAngleDeg ∨
      InSequence s ∧ finalTarget build (controlTask build i s) = finalTarget build s := by
  obtain ⟨task, hprepares, hmoves⟩ := controlTask_moves build i s
  rcases hmoves.of_turning hturning with ⟨hpause, hresumes⟩ | hgoes
  · obtain ⟨hkept, hsame⟩ := hprepares.of_over (Or.inr hpause)
    have hstate := hkept.symm.trans hpause
    refine Or.inr ⟨Or.inr (Or.inl hstate), ?_⟩
    rw [finalTarget, if_pos hresumes.state, hresumes.target, hsame.targetDeg, finalTarget,
      hstate, if_neg (by decide)]
  · rw [InSequence, hgoes.state] at h
    rcases hprepares.of_turning hgoes.turning with ⟨hkept, hsame⟩ | ⟨hfrom, hstarts⟩
    · rw [hkept] at h
      exact Or.inr ⟨h, finalTarget_congr build (hgoes.state.trans hkept)
        (hgoes.target.trans hsame.targetDeg)⟩
    · have hfirst := hstarts.first h
      refine Or.inl ⟨not_inSequence_of_start hfrom, ?_⟩
      rw [finalTarget, hgoes.state, hfirst, if_neg (by decide), hgoes.target,
        hstarts.target hfirst]

theorem sequence_of_pause (hpause : (controlTask build i s).task.state = .sequencePause) :
    InSequence s ∧ finalTarget build (controlTask build i s) = finalTarget build s := by
  obtain ⟨task, hprepares, hmoves⟩ := controlTask_moves build i s
  rcases hmoves.of_over (Or.inr hpause) with htask | ⟨⟨hbefore, hbrake, -⟩, htarget, hfirst⟩
  · rw [htask] at hpause
    obtain ⟨hkept, hsame⟩ := hprepares.of_over (Or.inr hpause)
    refine ⟨Or.inr (Or.inl (hkept.symm.trans hpause)), finalTarget_congr build ?_ ?_⟩
    · rw [htask, hkept]
    · rw [htask, hsame.targetDeg]
  · rcases hprepares.of_turning hbefore with ⟨hkept, hsame⟩ | ⟨-, hstarts⟩
    · have hstate := hkept.symm.trans (hfirst hpause)
      refine ⟨Or.inl hstate, ?_⟩
      rw [finalTarget, hpause, if_neg (by decide), htarget, hsame.targetDeg, finalTarget, hstate,
        if_neg (by decide)]
    · rw [hstarts.phase] at hbrake
      cases hbrake

/-- In a sequence after an iteration, it has just begun, and is to end at the yaw, by way of
the first target, or its end has stayed. -/
theorem sequence_controlTask (h : InSequence (controlTask build i s)) :
    ¬ InSequence s ∧ finalTarget build (controlTask build i s) =
        i.imu.yawDeg - build.turnAngleDeg + build.turnAngleDeg ∨
      InSequence s ∧ finalTarget build (controlTask build i s) = finalTarget build s := by
  have hstate := h
  rcases hstate with hcw | hpause | hccw
  · exact sequence_of_turning build (congrArg TurnState.isTurning hcw) h
  · exact Or.inr (sequence_of_pause build hpause)
  · exact sequence_of_turning build (congrArg TurnState.isTurning hccw) h

/-- In the second turn of a sequence nothing changes the target. -/
theorem targetDeg_controlTask (h : s.task.state = .sequenceCcw) :
    (controlTask build i s).task.targetDeg = s.task.targetDeg := by
  obtain ⟨task, hprepares, hmoves⟩ := controlTask_moves build i s
  have hsame : task.state ≠ .sequencePause ∧ SameTurn s.task task := by
    cases hprepares with
    | kept hstate hsame =>
        rw [hstate, h]
        exact ⟨by decide, hsame⟩
    | halted hrest hsame =>
        refine ⟨fun hpause => ?_, hsame⟩
        rw [hpause] at hrest
        rcases hrest with h | h | h <;> cases h
    | started hfrom _ =>
        exact absurd (Or.inr (Or.inr h)) (not_inSequence_of_start hfrom)
  rw [← hsame.2.targetDeg]
  cases hmoves with
  | rests _ htask => rw [htask]
  | resumes hpause _ => exact absurd hpause hsame.1
  | faults _ _ _ htask => rw [htask]
  | turns _ _ _ htask => rw [htask]
  | brakes _ _ _ htask => rw [htask]
  | waits _ _ _ _ _ htask => rw [htask]
  | arrives _ _ _ _ _ _ htask => rcases htask with htask | ⟨-, htask⟩ <;> rw [htask]
  | pulses _ _ _ hpulses => rw [hpulses.target]

/-- A turn is over, or its pause begins, only at rest and near the target. -/
theorem over_controlTask
    (hover : (controlTask build i s).task.state = .done ∨
      (controlTask build i s).task.state = .sequencePause)
    (hnew : s.task.state ≠ (controlTask build i s).task.state) :
    Braking s ∧ AtRest i.now i.imu s.task ∧ turnSettleSamples ≤ s.task.settleSamples + 1 ∧
      absFloat ((controlTask build i s).task.targetDeg - i.imu.yawDeg) ≤
        build.turnPrecisionDeg := by
  obtain ⟨task, hprepares, hmoves⟩ := controlTask_moves build i s
  rcases hmoves.of_over hover with
    htask | ⟨⟨hbefore, hbrake, hrest, hsettled, hnear⟩, htarget, -⟩
  · rw [htask] at hover hnew
    exact absurd (hprepares.of_over hover).1.symm hnew
  · rw [htarget]
    rcases hprepares.of_turning hbefore with ⟨hstate, hsame⟩ | ⟨-, hstarts⟩
    · rw [hstate] at hbefore
      rw [AtRest, hsame.phaseStartedMs] at hrest
      rw [hsame.settleSamples] at hsettled
      exact ⟨⟨hbefore, hsame.phase.symm.trans hbrake⟩, hrest, hsettled, hnear⟩
    · rw [hstarts.phase] at hbrake
      cases hbrake

theorem fineBounded_controlTask (h : FineBounded build s.task) :
    FineBounded build (controlTask build i s).task := by
  obtain ⟨task, hprepares, hmoves⟩ := controlTask_moves build i s
  have hinitial : ∀ task' : ControlTask F, task'.finePwm = turnFinePwmInitial →
      task'.fineAttempts = 0 → FineBounded build task' := by
    intro task' hpwm hattempts
    refine ⟨hattempts ▸ Nat.zero_le _, ?_⟩
    rw [FineRange, hpwm]
    decide
  have hsame : ∀ task', SameTurn s.task task' → FineBounded build task' := by
    intro task' hsame
    refine ⟨hsame.fineAttempts ▸ h.attempts, ?_⟩
    rw [FineRange, hsame.finePwm]
    exact h.range
  have hbefore : FineBounded build task := by
    cases hprepares with
    | kept _ h => exact hsame _ h
    | halted _ h => exact hsame _ h
    | started _ hstarts => exact hinitial _ hstarts.finePwm hstarts.fineAttempts
  cases hmoves with
  | rests _ htask => exact htask ▸ hbefore
  | resumes _ hresumes => exact hinitial _ hresumes.finePwm hresumes.fineAttempts
  | faults _ _ _ htask => exact htask ▸ ⟨hbefore.attempts, hbefore.range⟩
  | turns _ _ _ htask => exact htask ▸ hbefore
  | brakes _ _ _ htask => exact htask ▸ ⟨hbefore.attempts, hbefore.range⟩
  | waits _ _ _ _ _ htask => exact htask ▸ ⟨hbefore.attempts, hbefore.range⟩
  | arrives _ _ _ _ _ _ htask =>
      rcases htask with htask | ⟨-, htask⟩ <;>
        exact htask ▸ ⟨hbefore.attempts, hbefore.range⟩
  | pulses _ _ _ hpulses =>
      refine ⟨?_, hpulses.finePwm hbefore.range⟩
      rw [hpulses.fineAttempts]
      exact hpulses.before

end Step

section Run

variable (build : TurnBuild F) (b : Board) (run : List (TurnEvent F)) (i : TurnInput F)

theorem exec_control :
    exec (step build) (start b) (run ++ [.control i]) =
      controlTask build i (exec (step build) (start b) run) :=
  exec_append ..

/-- What a variable remembers, of a kind of states that only an iteration begins. -/
theorem lastsSince {ι : Type*} {P : TurnSystem F → Prop} {reads : TurnInput F → ι}
    (value : TurnSystem F → ι)
    (hfault : ∀ code detail s, P (step build s (.faultRaise code detail)) →
      P s ∧ value (step build s (.faultRaise code detail)) = value s)
    (hcontrol : ∀ i s, P (controlTask build i s) →
      ¬ P s ∧ value (controlTask build i s) = reads i ∨
        P s ∧ value (controlTask build i s) = value s)
    (hstart : ¬ P (start b)) (h : P (exec (step build) (start b) run)) :
    LastsSince build P reads b run (value (exec (step build) (start b) run)) := by
  refine since_of_steps (fun s e hP => ?_) hstart run h
  cases e with
  | control i =>
      rcases hcontrol i s hP with ⟨hnot, hvalue⟩ | hkept
      · exact Or.inr ⟨hnot, hP, i, rfl, hvalue.symm⟩
      · exact Or.inl hkept
  | faultRaise code detail => exact Or.inl (hfault code detail s hP)

theorem lastsSince_braking (h : Braking (exec (step build) (start b) run)) :
    LastsSince build Braking TurnInput.now b run
      (exec (step build) (start b) run).task.phaseStartedMs := by
  refine lastsSince build b run (fun s => s.task.phaseStartedMs) (fun _ _ _ h => ⟨h, rfl⟩)
    (fun i s h => ?_) (fun h => nomatch h.1) h
  rcases braking_controlTask build h with ⟨hnot, hstarted, -⟩ | ⟨hbraking, hstarted, -⟩
  · exact Or.inl ⟨hnot, hstarted⟩
  · exact Or.inr ⟨hbraking, hstarted⟩

theorem lastsSince_turning (h : Turning (exec (step build) (start b) run)) :
    LastsSince build Turning TurnInput.now b run
      (exec (step build) (start b) run).task.segmentStartedMs :=
  lastsSince build b run (fun s => s.task.segmentStartedMs) (fun _ _ _ h => ⟨h, rfl⟩)
    (fun _ _ h => (turning_controlTask build h).2) (fun h => nomatch h) h

theorem lastsSince_sequence (h : InSequence (exec (step build) (start b) run)) :
    LastsSince build InSequence
      (fun i => i.imu.yawDeg - build.turnAngleDeg + build.turnAngleDeg) b run
      (finalTarget build (exec (step build) (start b) run)) :=
  lastsSince build b run (finalTarget build) (fun _ _ _ h => ⟨h, rfl⟩)
    (fun _ _ h => sequence_controlTask build h)
    (fun h => by rcases h with h | h | h <;> cases h) h

theorem quietBraking_of_atRest {i : TurnInput F} {s : TurnSystem F} (hbraking : Braking s)
    (hrest : AtRest i.now i.imu s.task) :
    QuietBraking s.task.phaseStartedMs s (.control i) := by
  refine ⟨hbraking, fun i' hi => ?_⟩
  obtain rfl := TurnEvent.control.inj hi
  exact ⟨hrest.2, hrest.1⟩

/-- The samples of a brake phase, with this one, are those of a streak. -/
theorem streak_of_atRest {startedMs : UInt32} {k : ℕ}
    (hbraking : Braking (exec (step build) (start b) run))
    (hrest : AtRest i.now i.imu (exec (step build) (start b) run).task)
    (h : Streak (step build)
      (QuietBraking (exec (step build) (start b) run).task.phaseStartedMs)
      (fun s e => isIteration s e) (start b) run k)
    (hstarted : (exec (step build) (start b) run).task.phaseStartedMs = startedMs) :
    Streak (step build) (QuietBraking startedMs) (fun s e => isIteration s e) (start b)
      (run ++ [.control i]) (k + 1) := by
  rw [← hstarted]
  exact streak_snoc.mpr (Or.inr ⟨quietBraking_of_atRest hbraking hrest, h⟩)

/-- While the car brakes, the samples are those of a streak at rest. -/
theorem streak_braking (h : Braking (exec (step build) (start b) run)) :
    Streak (step build) (QuietBraking (exec (step build) (start b) run).task.phaseStartedMs)
      (fun s e => isIteration s e) (start b) run
      (exec (step build) (start b) run).task.settleSamples := by
  induction run using List.reverseRecOn with
  | nil => cases h.1
  | append_singleton run e ih =>
      cases e with
      | control i =>
          rw [exec_control] at h ⊢
          rcases braking_controlTask build h with
            ⟨-, -, hzero⟩ | ⟨hbraking, hstarted, hzero | ⟨hrest, hsamples⟩⟩
          · rw [hzero]
            exact streak_zero
          · rw [hzero]
            exact streak_zero
          · rw [hsamples]
            exact streak_of_atRest build b run i hbraking hrest (ih hbraking) hstarted.symm
      | faultRaise code detail =>
          rw [exec_append] at h ⊢
          exact streak_snoc.mpr (Or.inr ⟨⟨h, fun _ h => nomatch h⟩, ih h⟩)

theorem fineBounded_run :
    EachState (step build) (fun s => FineBounded build s.task) (start b) run := by
  have hstep : ∀ (s : TurnSystem F) e, FineBounded build s.task →
      FineBounded build (step build s e).task := by
    intro s e h
    cases e with
    | control i => exact fineBounded_controlTask build h
    | faultRaise code detail => exact h
  have hstart : FineBounded build (start b).task :=
    ⟨Nat.zero_le _, show 140 ≤ turnFinePwmInitial ∧ turnFinePwmInitial ≤ 260 by decide⟩
  exact fun before _ _ => exec_invariant hstep hstart before

theorem reports_run :
    Reports build b run i (exec (step build) (start b) run)
      (controlTask build i (exec (step build) (start b) run)) where
  done hover hnew := by
    obtain ⟨hbraking, hrest, hsettled, hnear⟩ := over_controlTask build hover hnew
    refine ⟨hnear, _, (lastsSince_braking build b run hbraking).snoc hbraking, ?_⟩
    have hstreak := streak_of_atRest build b run i hbraking hrest
      (streak_braking build b run hbraking) rfl
    exact hstreak.mono hsettled
  inTime hturning := by
    refine ⟨_, lastsSince_turning build b (run ++ [.control i]) ?_, ?_⟩
    · rw [exec_control]
      exact hturning
    · rw [exec_control]
      exact (turning_controlTask build hturning).1

theorem sequenceEndsAt_run :
    SequenceEndsAt build b run i (exec (step build) (start b) run)
      (controlTask build i (exec (step build) (start b) run))
      (fun i => i.imu.yawDeg - build.turnAngleDeg + build.turnAngleDeg) := by
  rintro (hstate | hstate)
  · have hsequence : InSequence (exec (step build) (start b) run) := Or.inr (Or.inr hstate)
    have hsince := (lastsSince_sequence build b run hsequence).snoc (e := .control i) hsequence
    rwa [finalTarget, if_pos hstate, ← targetDeg_controlTask build hstate] at hsince
  · have hsince := lastsSince_sequence build b (run ++ [.control i])
    rw [exec_control] at hsince
    have hlast := hsince (Or.inr (Or.inr hstate))
    rwa [finalTarget, if_pos hstate] at hlast

end Run

/-- In any arithmetic a turn is over only when it really is, and is given up when it has
lasted too long; and in exact arithmetic a sequence ends at the yaw at which it was
started. -/
theorem turn_over_only_when_settled :
    (∀ (F : Type) [CFloat F] (build : TurnBuild F) (b : Board) (run : List (TurnEvent F)),
      EachState (step build) (fun s => FineBounded build s.task) (start b) run ∧
        ∀ i, Reports build b run i (exec (step build) (start b) run)
          (controlTask build i (exec (step build) (start b) run))) ∧
    ∀ (build : TurnBuild ℝ) (b : Board) (run : List (TurnEvent ℝ)) (i : TurnInput ℝ),
      SequenceEndsAt build b run i (exec (step build) (start b) run)
        (controlTask build i (exec (step build) (start b) run)) (fun i => i.imu.yawDeg) := by
  refine ⟨fun F _ build b run => ⟨fineBounded_run build b run, reports_run build b run⟩, ?_⟩
  intro build b run i
  have hends := sequenceEndsAt_run build b run i
  simp only [sub_add_cancel] at hends
  exact hends

end NuedcFirmware.Tests.TurnDone
