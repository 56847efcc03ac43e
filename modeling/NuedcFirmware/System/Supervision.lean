import NuedcFirmware.Modules.Motor

/-!
System supervision: the fault manager (`fault_manager.c`), the health monitor
(`health_monitor.c`), the watchdog (`watchdog.c`) and one iteration of the
health task, which is the only one that feeds the watchdog.
-/

namespace NuedcFirmware.System

open NuedcFirmware.Lib NuedcFirmware.Platform NuedcFirmware.Modules

inductive SystemFaultCode
  | none
  | taskStale
  | imu
  | stack
  | heap
  deriving DecidableEq, Repr

inductive HealthTaskId
  | imu
  | fastIo
  | control
  | telemetry
  deriving DecidableEq, Repr

structure FaultManager where
  code : SystemFaultCode
  detail : UInt32

structure HealthMonitor where
  lastBeatMs : HealthTaskId → UInt32
  startedMs : UInt32

/-- The state of the supervision: fault latch, heartbeats, and how often the
watchdog has been fed. -/
structure Supervisor where
  fault : FaultManager
  health : HealthMonitor
  watchdogFeeds : ℕ

/-! ### `fault_manager.c` -/

def systemFaultInit : FaultManager := ⟨.none, 0⟩

/-- `System_Fault_Raise`: both duties to 0, and the first fault is kept. -/
def systemFaultRaise (code : SystemFaultCode) (detail : UInt32) (fault : FaultManager)
    (motor : BspMotor) : FaultManager × BspMotor :=
  let motor := bspMotorSetDuty 0 0 motor
  let motor := bspMotorSetDuty 1 0 motor
  (if fault.code = .none then { code, detail } else fault, motor)

def systemFaultIsActive (fault : FaultManager) : Bool := fault.code ≠ .none

/-! ### `health_monitor.c` -/

def healthStartupGraceMs : UInt32 := 2000

/-- `s_deadline_ms`. -/
def deadlineMs : HealthTaskId → ℕ
  | .imu => 100
  | .fastIo => 50
  | .control => 100
  | .telemetry => 500

/-- The tasks in the order of their numbers. -/
def healthTasks : List HealthTaskId := [.imu, .fastIo, .control, .telemetry]

def systemHealthInit (nowMs : UInt32) : HealthMonitor where
  lastBeatMs _ := nowMs
  startedMs := nowMs

def systemHealthBeat (task : HealthTaskId) (nowMs : UInt32) (health : HealthMonitor) :
    HealthMonitor :=
  { health with lastBeatMs := Function.update health.lastBeatMs task nowMs }

/-- The last beat of the task is older than its deadline, by the counter. -/
def HealthMonitor.stale (health : HealthMonitor) (nowMs : UInt32) (task : HealthTaskId) : Bool :=
  nowMs - health.lastBeatMs task > UInt32.ofNat (deadlineMs task)

/-- The loop of `System_Health_Check`: a bit for each stale task. -/
def staleMask (stale : HealthTaskId → Bool) : ℕ :=
  healthTasks.zipIdx.foldl (fun mask (task, i) => if stale task then mask ||| 1 <<< i else mask) 0

/-- `System_Health_Check`: whether no task is stale, and the mask of those that
are. -/
def systemHealthCheck (nowMs : UInt32) (health : HealthMonitor) : Bool × ℕ :=
  let mask :=
    if nowMs - health.startedMs ≥ healthStartupGraceMs then staleMask (health.stale nowMs) else 0
  (mask = 0, mask)

/-! ### `watchdog.c` and the health task -/

def systemWatchdogFeed (s : Supervisor) : Supervisor :=
  { s with watchdogFeeds := s.watchdogFeeds + 1 }

/-- One iteration of `health_task`. -/
def healthTask (nowMs : UInt32) (s : Supervisor) (motor : BspMotor) : Supervisor × BspMotor :=
  let (healthy, staleMask) := systemHealthCheck nowMs s.health
  if healthy ∧ !systemFaultIsActive s.fault then (systemWatchdogFeed s, motor)
  else if staleMask ≠ 0 then
    let (fault, motor) := systemFaultRaise .taskStale (UInt32.ofNat staleMask) s.fault motor
    ({ s with fault }, motor)
  else (s, motor)

/-! ### What they do -/

theorem staleMask_eq_zero (stale : HealthTaskId → Bool) :
    staleMask stale = 0 ↔ ∀ task, stale task = false := by
  refine ⟨?_, ?_⟩
  · intro h task
    cases himu : stale .imu <;> cases hfast : stale .fastIo <;>
      cases hcontrol : stale .control <;> cases htelemetry : stale .telemetry <;>
      simp [staleMask, healthTasks, himu, hfast, hcontrol, htelemetry] at h
    cases task <;> assumption
  · intro h
    simp [staleMask, healthTasks, h]

theorem systemHealthCheck_snd (nowMs : UInt32) (health : HealthMonitor) :
    (systemHealthCheck nowMs health).2 = 0 ↔ (systemHealthCheck nowMs health).1 = true := by
  rw [systemHealthCheck, decide_eq_true_eq]

/-- The check passes during the grace period, and afterwards if no task is stale. -/
theorem systemHealthCheck_fst (nowMs : UInt32) (health : HealthMonitor) :
    (systemHealthCheck nowMs health).1 = true ↔
      (healthStartupGraceMs ≤ nowMs - health.startedMs →
        ∀ task, health.stale nowMs task = false) := by
  rw [← systemHealthCheck_snd]
  rw [systemHealthCheck]
  by_cases hgrace : healthStartupGraceMs ≤ nowMs - health.startedMs
  · simp only [ge_iff_le, hgrace, if_true, staleMask_eq_zero, forall_const]
  · simp only [ge_iff_le, hgrace, if_false, false_imp_iff]

theorem isActive_systemFaultRaise {fault : FaultManager} (h : systemFaultIsActive fault)
    (code : SystemFaultCode) (detail : UInt32) (motor : BspMotor) :
    (systemFaultRaise code detail fault motor).1 = fault := by
  have : fault.code ≠ .none := by simpa [systemFaultIsActive] using h
  simp [systemFaultRaise, this]

theorem isActive_systemFaultRaise_of_ne {code : SystemFaultCode} (hcode : code ≠ .none)
    (detail : UInt32) (fault : FaultManager) (motor : BspMotor) :
    systemFaultIsActive (systemFaultRaise code detail fault motor).1 = true := by
  rw [systemFaultRaise]
  by_cases h : fault.code = .none
  · simp [h, systemFaultIsActive, hcode]
  · simp [h, systemFaultIsActive]

/-- The health task feeds the watchdog, or raises the fault of the stale tasks,
or finds a fault active with no task stale and does nothing. -/
theorem healthTask_cases (nowMs : UInt32) (s : Supervisor) (motor : BspMotor) :
    ((systemHealthCheck nowMs s.health).1 = true ∧ systemFaultIsActive s.fault = false ∧
        healthTask nowMs s motor = (systemWatchdogFeed s, motor)) ∨
      ((systemHealthCheck nowMs s.health).1 = false ∧
        ∃ detail, healthTask nowMs s motor =
          ({ s with fault := (systemFaultRaise .taskStale detail s.fault motor).1 },
            (systemFaultRaise .taskStale detail s.fault motor).2)) ∨
      ((systemHealthCheck nowMs s.health).1 = true ∧ systemFaultIsActive s.fault = true ∧
        healthTask nowMs s motor = (s, motor)) := by
  have hmask := systemHealthCheck_snd nowMs s.health
  cases hcheck : (systemHealthCheck nowMs s.health).1 with
  | false =>
      right; left
      have hne : (systemHealthCheck nowMs s.health).2 ≠ 0 := by simp [hmask, hcheck]
      refine ⟨rfl, UInt32.ofNat (systemHealthCheck nowMs s.health).2, ?_⟩
      simp [healthTask, hcheck, hne]
  | true =>
      have hzero : (systemHealthCheck nowMs s.health).2 = 0 := hmask.mpr hcheck
      cases hactive : systemFaultIsActive s.fault with
      | false => left; simp [healthTask, hcheck, hactive]
      | true => right; right; simp [healthTask, hcheck, hactive, hzero]

end NuedcFirmware.System
