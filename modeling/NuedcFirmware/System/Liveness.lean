import NuedcFirmware.Lib.Run
import NuedcFirmware.System.Supervision

/-!
Liveness supervision over true time.

Tasks beat and the health task checks at true times; the monitor sees each of
them modulo `2 ^ 32`. The deadline test subtracts two readings, so it is exact
for every age below one period of the counter. The grace test subtracts the
reading of the start, and is true again for the first two seconds of every later
period: there the check passes whatever the tasks do.
-/

namespace NuedcFirmware.System.Liveness

open NuedcFirmware.Lib NuedcFirmware.Platform NuedcFirmware.Modules

inductive Event
  | beat (task : HealthTaskId) (time : ℕ)
  | healthIteration (time : ℕ)
  | faultRaise (code : SystemFaultCode) (detail : UInt32)

/-- The supervision with the motors it stops, and the true times that an
observer knows: of the start and of each task's last beat. -/
structure Observed where
  supervisor : Supervisor
  motor : BspMotor
  started : ℕ
  lastBeat : HealthTaskId → ℕ

def step (o : Observed) : Event → Observed
  | .beat task time =>
      { o with
        supervisor :=
          { o.supervisor with
            health := systemHealthBeat task (tick32 time) o.supervisor.health }
        lastBeat := Function.update o.lastBeat task time }
  | .healthIteration time =>
      let r := healthTask (tick32 time) o.supervisor o.motor
      { o with supervisor := r.1, motor := r.2 }
  | .faultRaise code detail =>
      let r := systemFaultRaise code detail o.supervisor.fault o.motor
      { o with supervisor := { o.supervisor with fault := r.1 }, motor := r.2 }

/-- `System_Fault_Init` and `System_Health_Init` at true time `t`. -/
def start (b : Board) (t : ℕ) : Observed where
  supervisor := ⟨systemFaultInit, systemHealthInit (tick32 t), 0⟩
  motor := bspMotorInit b
  started := t
  lastBeat _ := t

/-- A fault is active. -/
def Faulty (o : Observed) : Prop := systemFaultIsActive o.supervisor.fault = true

/-- At true time `time`, past the start-up grace, some task's last beat is older
than its deadline and less than one period of the counter old. -/
def Overdue (o : Observed) (time : ℕ) : Prop :=
  o.started + 2000 ≤ time ∧
    ∃ task, deadlineMs task < time - o.lastBeat task ∧ time - o.lastBeat task < 2 ^ 32

/-- A health iteration with an overdue task leaves a fault active and does not
feed the watchdog. -/
def Detected (o : Observed) (e : Event) : Prop :=
  ∀ time, e = .healthIteration time → Overdue o time →
    Faulty (step o e) ∧
      (step o e).supervisor.watchdogFeeds = o.supervisor.watchdogFeeds

/-- Liveness supervision is sound along a run: every overdue task is detected,
and once a fault is active the watchdog is never fed again. -/
def Sound (o : Observed) (run : List Event) : Prop :=
  EachStep step Detected o run ∧
    ∀ pre post, run = pre ++ post → Faulty (exec step o pre) →
      (exec step o run).supervisor.watchdogFeeds =
        (exec step o pre).supervisor.watchdogFeeds

/-- Where a health iteration has an overdue task before it, a fault is active
already or the iteration is not in the first 2000 ms of a period of the counter,
counted from the start. -/
def OutsideRepeatedGrace (o : Observed) (e : Event) : Prop :=
  ∀ time, e = .healthIteration time → Overdue o time →
    Faulty o ∨ 2000 ≤ (time - o.started) % 2 ^ 32

/-! ### The readings -/

/-- The monitor's readings are those of the true times. -/
structure Reads (o : Observed) : Prop where
  started : o.supervisor.health.startedMs = tick32 o.started
  lastBeat : ∀ task, o.supervisor.health.lastBeatMs task = tick32 (o.lastBeat task)

theorem reads_start (b : Board) (t : ℕ) : Reads (start b t) := ⟨rfl, fun _ => rfl⟩

theorem health_healthTask (nowMs : UInt32) (s : Supervisor) (motor : BspMotor) :
    (healthTask nowMs s motor).1.health = s.health := by
  rcases healthTask_cases nowMs s motor with ⟨-, -, h⟩ | ⟨-, detail, h⟩ | ⟨-, -, h⟩ <;>
    simp [h, systemWatchdogFeed]

theorem reads_step {o : Observed} (h : Reads o) (e : Event) : Reads (step o e) := by
  cases e with
  | beat task time =>
      refine ⟨h.started, fun task' => ?_⟩
      by_cases htask : task' = task
      · simp [step, systemHealthBeat, htask]
      · simp [step, systemHealthBeat, htask, h.lastBeat]
  | healthIteration time =>
      refine ⟨?_, fun task => ?_⟩
      · simp [step, health_healthTask, h.started]
      · simp [step, health_healthTask, h.lastBeat]
  | faultRaise code detail => exact ⟨h.started, h.lastBeat⟩

section Readings

variable {o : Observed} (h : Reads o) {time : ℕ}
include h

theorem grace_iff (hstart : o.started + 2000 ≤ time) :
    healthStartupGraceMs ≤ tick32 time - o.supervisor.health.startedMs ↔
      2000 ≤ (time - o.started) % 2 ^ 32 := by
  rw [h.started, UInt32.le_iff_toNat_le, toNat_tick32_sub (by omega)]
  rfl

theorem stale_of_overdue {task : HealthTaskId} (hlate : deadlineMs task < time - o.lastBeat task)
    (hperiod : time - o.lastBeat task < 2 ^ 32) :
    o.supervisor.health.stale (tick32 time) task = true := by
  have hdeadline : deadlineMs task < 2 ^ 32 := by cases task <;> decide
  have hlt := (lt_tick32_sub_iff (s := o.lastBeat task) (t := time) (by omega) hperiod
    hdeadline).mpr hlate
  simpa [HealthMonitor.stale, h.lastBeat] using hlt

/-- With an overdue task the check passes exactly in a repeated grace period. -/
theorem check_of_overdue (hover : Overdue o time) :
    (systemHealthCheck (tick32 time) o.supervisor.health).1 = true ↔
      ¬ 2000 ≤ (time - o.started) % 2 ^ 32 := by
  obtain ⟨hstart, task, hlate, hperiod⟩ := hover
  rw [systemHealthCheck_fst, grace_iff h hstart]
  refine ⟨?_, ?_⟩
  · intro hcheck hgrace
    simpa [stale_of_overdue h hlate hperiod] using hcheck hgrace task
  · intro hgrace hpast
    exact absurd hpast hgrace

theorem detected_iff (e : Event) : Detected o e ↔ OutsideRepeatedGrace o e := by
  refine ⟨?_, ?_⟩
  · rintro hdetected time rfl hover
    by_contra hbad
    push Not at hbad
    obtain ⟨hfaulty, hgrace⟩ := hbad
    -- in a repeated grace period the check passes, and the watchdog is fed
    have hcheck := (check_of_overdue h hover).mpr (by omega)
    have hfed := (hdetected time rfl hover).2
    rcases healthTask_cases (tick32 time) o.supervisor o.motor with
      ⟨-, -, hstep⟩ | ⟨hfail, -⟩ | ⟨-, hactive, -⟩
    · simp [step, hstep, systemWatchdogFeed] at hfed
    · simp [hcheck] at hfail
    · exact hfaulty hactive
  · rintro hout time rfl hover
    -- the task cannot feed: a fault is active, or the check has found the overdue task
    rcases healthTask_cases (tick32 time) o.supervisor o.motor with
      ⟨hcheck, hactive, -⟩ | ⟨-, detail, hstep⟩ | ⟨-, hactive, hstep⟩
    · rcases hout time rfl hover with hfaulty | hgrace
      · simp [Faulty, hactive] at hfaulty
      · exact absurd hgrace ((check_of_overdue h hover).mp hcheck)
    · simp only [Faulty, step, hstep, and_true]
      exact isActive_systemFaultRaise_of_ne (by decide) _ _ _
    · simp [Faulty, step, hstep, hactive]

end Readings

/-! ### The latch -/

/-- With a fault active, a step neither clears it nor feeds the watchdog. -/
theorem latched_step {o : Observed} (h : Faulty o) (e : Event) :
    Faulty (step o e) ∧ (step o e).supervisor.watchdogFeeds = o.supervisor.watchdogFeeds := by
  cases e with
  | beat task time => exact ⟨h, rfl⟩
  | faultRaise code detail =>
      refine ⟨?_, rfl⟩
      simp only [Faulty, step, isActive_systemFaultRaise h]
      exact h
  | healthIteration time =>
      rcases healthTask_cases (tick32 time) o.supervisor o.motor with
        ⟨-, hactive, -⟩ | ⟨-, detail, hstep⟩ | ⟨-, -, hstep⟩
      · simp [Faulty, hactive] at h
      · simp only [Faulty, step, hstep, isActive_systemFaultRaise h, and_true]
        exact h
      · simp only [Faulty, step, hstep, and_true]
        exact h

theorem latched_exec {o : Observed} (h : Faulty o) (run : List Event) :
    (exec step o run).supervisor.watchdogFeeds = o.supervisor.watchdogFeeds := by
  induction run generalizing o with
  | nil => rfl
  | cons e run ih =>
      obtain ⟨hfaulty, hfeeds⟩ := latched_step h e
      rw [exec_cons, ih hfaulty, hfeeds]

/-! ### Runs -/

/-- Liveness supervision is sound along a run of any length if and only if no
health iteration with an overdue task falls, while no fault is active, into the
first 2000 ms of a period of the counter. -/
theorem sound_iff (b : Board) (t : ℕ) (run : List Event) :
    Sound (start b t) run ↔ EachStep step OutsideRepeatedGrace (start b t) run := by
  have hdetected : EachStep step Detected (start b t) run ↔
      EachStep step OutsideRepeatedGrace (start b t) run :=
    eachStep_congr (fun o e h _ => reads_step h e) (fun o e h => detected_iff h e)
      (reads_start b t)
  rw [Sound, hdetected, and_iff_left_iff_imp]
  rintro - pre post rfl hfaulty
  rw [exec_append, latched_exec hfaulty]

/-! ### A run into the second period -/

/-- The pacing: time does not go back, and each health iteration comes at
most 20 ms after the one before. -/
def Paced (lastHealth clock : ℕ) : List Event → Prop
  | [] => True
  | .beat _ time :: run => clock ≤ time ∧ Paced lastHealth time run
  | .healthIteration time :: run =>
      clock ≤ time ∧ time ≤ lastHealth + 20 ∧ Paced time time run
  | .faultRaise _ _ :: run => Paced lastHealth clock run

/-- Every task beats and the health task checks, all at true time `t`. -/
def round (t : ℕ) : List Event :=
  [.beat .imu t, .beat .fastIo t, .beat .control t, .beat .telemetry t, .healthIteration t]

/-- `n` rounds, 20 ms apart, after true time `t`. -/
def rounds (t : ℕ) : ℕ → List Event
  | 0 => []
  | n + 1 => round (t + 20) ++ rounds (t + 20) n

/-- Rounds up to 16 ms before the counter wraps, and then three health iterations
without a beat. -/
def silenceAfterWrap : List Event :=
  rounds 0 214748364 ++
    [.healthIteration (2 ^ 32 + 4), .healthIteration (2 ^ 32 + 24),
      .healthIteration (2 ^ 32 + 44)]

theorem paced_rounds (t n : ℕ) {rest : List Event}
    (h : Paced (t + 20 * n) (t + 20 * n) rest) : Paced t t (rounds t n ++ rest) := by
  induction n generalizing t with
  | zero => exact h
  | succ n ih =>
      have hrest := ih (t + 20) (by rwa [show t + 20 + 20 * n = t + 20 * (n + 1) by omega])
      simpa [rounds, round, Paced] using hrest

/-- No fault is active and every task has beaten last at true time `t`. -/
structure Calm (o : Observed) (t : ℕ) : Prop where
  reads : Reads o
  started : o.started = 0
  lastBeat : ∀ task, o.lastBeat task = t
  healthy : ¬ Faulty o

theorem Calm.healthIteration {o : Observed} {t time : ℕ} (h : Calm o t)
    (hcheck : (systemHealthCheck (tick32 time) o.supervisor.health).1 = true) :
    Calm (step o (.healthIteration time)) t where
  reads := reads_step h.reads _
  started := h.started
  lastBeat := h.lastBeat
  healthy := by
    rcases healthTask_cases (tick32 time) o.supervisor o.motor with
      ⟨-, -, hstep⟩ | ⟨hfail, -⟩ | ⟨-, hactive, -⟩
    · simpa [Faulty, step, hstep, systemWatchdogFeed] using h.healthy
    · simp [hcheck] at hfail
    · exact absurd hactive h.healthy

/-- In the first 2000 ms of a period the check passes. -/
theorem Calm.check_of_grace {o : Observed} {t : ℕ} (h : Calm o t) (time : ℕ)
    (hgrace : time % 2 ^ 32 < 2000) :
    (systemHealthCheck (tick32 time) o.supervisor.health).1 = true := by
  rw [systemHealthCheck_fst, h.reads.started, h.started, UInt32.le_iff_toNat_le,
    toNat_tick32_sub (Nat.zero_le time)]
  intro hpast
  change 2000 ≤ (time - 0) % 2 ^ 32 at hpast
  omega

theorem not_stale_of_beat_now {health : HealthMonitor} {nowMs : UInt32} {task : HealthTaskId}
    (h : health.lastBeatMs task = nowMs) : health.stale nowMs task = false := by
  rw [HealthMonitor.stale, h, UInt32.sub_self]
  cases task <;> decide

theorem calm_round {o : Observed} {t : ℕ} (h : Calm o t) (t' : ℕ) :
    Calm (exec step o (round t')) t' := by
  have hbeats : Calm (exec step o
      [.beat .imu t', .beat .fastIo t', .beat .control t', .beat .telemetry t']) t' := by
    refine ⟨exec_invariant (I := Reads) (fun _ e h => reads_step h e) h.reads _, h.started, ?_,
      h.healthy⟩
    intro task
    cases task <;> simp [step]
  apply hbeats.healthIteration
  rw [systemHealthCheck_fst]
  intro _ task
  -- a task that beats at the instant of the check is not stale
  have hlast := hbeats.reads.lastBeat task
  rw [hbeats.lastBeat task] at hlast
  exact not_stale_of_beat_now hlast

theorem calm_rounds {o : Observed} {t : ℕ} (h : Calm o t) (n : ℕ) :
    Calm (exec step o (rounds t n)) (t + 20 * n) := by
  induction n generalizing o t with
  | zero => exact h
  | succ n ih =>
      have hnext := ih (calm_round h (t + 20))
      rw [rounds, exec_append]
      rwa [show t + 20 + 20 * n = t + 20 * (n + 1) by omega] at hnext

/-- After the wrap the fast task is 60 ms silent, its deadline is 50 ms, and the
watchdog is fed all the same. -/
theorem unsound_after_wrap :
    Paced 0 0 silenceAfterWrap ∧ ¬ Sound (start Board.atReset 0) silenceAfterWrap := by
  refine ⟨?_, ?_⟩
  · apply paced_rounds
    exact ⟨by omega, by omega, by omega, by omega, by omega, by omega, trivial⟩
  · rintro ⟨hdetected, -⟩
    have hstart : Calm (start Board.atReset 0) 0 :=
      ⟨reads_start _ 0, rfl, fun _ => rfl, by simp [Faulty, start, systemFaultInit,
        systemFaultIsActive]⟩
    have hcalm := calm_rounds hstart 214748364
    generalize hrun : rounds 0 214748364 = run at hcalm
    rw [silenceAfterWrap, hrun, eachStep_append] at hdetected
    generalize exec step (start Board.atReset 0) run = o at hcalm hdetected
    have hfirst := hcalm.healthIteration (hcalm.check_of_grace (2 ^ 32 + 4) (by omega))
    have hsecond :=
      hfirst.healthIteration (hfirst.check_of_grace (2 ^ 32 + 24) (by omega))
    have hthird := (detected_iff hsecond.reads _).mp hdetected.2.2.2.1
    have hover : Overdue (step (step o (.healthIteration (2 ^ 32 + 4)))
        (.healthIteration (2 ^ 32 + 24))) (2 ^ 32 + 44) := by
      refine ⟨by rw [hsecond.started]; decide, .fastIo, ?_⟩
      rw [hsecond.lastBeat]
      decide
    rcases hthird _ rfl hover with hfaulty | hgrace
    · exact hsecond.healthy hfaulty
    · rw [hsecond.started] at hgrace
      exact absurd hgrace (by omega)

end NuedcFirmware.System.Liveness
