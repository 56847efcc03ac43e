import NuedcFirmware.Lib.Run
import NuedcFirmware.Modules.Motor

/-!
The command timeout of the motor module, over true time.

The module only ever sees 32-bit readings: the safety tick is given the true
time modulo `2 ^ 32`, and a command is stamped with `g_tick_ms`, which the tasks
write with the tick each of them captured and which may therefore be the reading
of an earlier instant. `Observed` is the module next to what an observer with an
unbounded clock would note down; `Fresh` ties the two together and is what every
well-timed run keeps.
-/

namespace NuedcFirmware.Modules.MotorTimeout

open NuedcFirmware.Lib NuedcFirmware.Platform

inductive MotorCall
  | setDuty (ch : ℕ) (duty : ℤ)
  | setSignedDuty (ch : ℕ) (duty : ℤ)
  | brake (ch : ℕ)
  | safetyTick
  deriving DecidableEq

/-- A `Set` call that asks for a duty other than 0. -/
def MotorCall.Drives : MotorCall → Prop
  | .setDuty _ duty | .setSignedDuty _ duty => duty ≠ 0
  | .brake _ | .safetyTick => False

instance : DecidablePred MotorCall.Drives
  | .setDuty _ duty | .setSignedDuty _ duty => inferInstanceAs (Decidable (duty ≠ 0))
  | .brake _ | .safetyTick => inferInstanceAs (Decidable False)

/-- A call at true time `time`, made while `g_tick_ms` holds the reading of true
time `tick`. -/
structure TimedCall where
  time : ℕ
  tick : ℕ
  call : MotorCall

/-- The last `Set` call: when it was issued, and the true time its recorded
command time is the reading of. -/
structure Command where
  issued : ℕ
  recorded : ℕ

structure Observed where
  motor : BspMotor
  clock : ℕ
  lastSafetyTick : ℕ
  command : Option Command

def withTick (t : ℕ) (s : BspMotor) : BspMotor :=
  { s with board := { s.board with gTickMs := tick32 t } }

def step (o : Observed) (e : TimedCall) : Observed :=
  let motor := withTick e.tick o.motor
  match e.call with
  | .setDuty ch duty =>
      { o with motor := bspMotorSetDuty ch duty motor, clock := e.time,
               command := some ⟨e.time, e.tick⟩ }
  | .setSignedDuty ch duty =>
      { o with motor := bspMotorSetSignedDuty ch duty motor, clock := e.time,
               command := some ⟨e.time, e.tick⟩ }
  | .brake ch => { o with motor := bspMotorBrake ch motor, clock := e.time }
  | .safetyTick =>
      { o with motor := bspMotorSafetyTick (tick32 e.time) motor, clock := e.time,
               lastSafetyTick := e.time }

/-- `BSP_Motor_Init` at true time `t`. -/
def start (b : Board) (t : ℕ) : Observed :=
  { motor := bspMotorInit b, clock := t, lastSafetyTick := t, command := none }

/-- Time does not go back, `g_tick_ms` lags it by at most `2 ^ 31` ms and never
leads it, and two safety ticks are at most a second apart. -/
structure WellTimed (o : Observed) (e : TimedCall) : Prop where
  clock : o.clock ≤ e.time
  lag : e.tick ≤ e.time ∧ e.time ≤ e.tick + 2 ^ 31
  safety : e.call = .safetyTick → e.time ≤ o.lastSafetyTick + 1000

/-- The invariant: the recorded command time is the reading of a recent enough
instant, and a motor only has a duty while no safety tick has come later than
100 ms after the last command. -/
structure Fresh (o : Observed) : Prop where
  coherent : o.motor.Coherent
  safetyTick_le : o.lastSafetyTick ≤ o.clock
  idle : o.command = none → ∀ w, o.motor.duty w = 0
  stamped : ∀ c, o.command = some c → o.motor.lastCommandMs = tick32 c.recorded
  recent : ∀ c, o.command = some c →
    c.recorded ≤ c.issued ∧ c.issued ≤ c.recorded + 2 ^ 31 ∧ c.issued ≤ o.clock
  driven : ∀ c, o.command = some c → (∃ w, o.motor.duty w ≠ 0) →
    o.lastSafetyTick ≤ c.issued + 100

/-! ### Setting `g_tick_ms` touches nothing else -/

section WithTick

variable (t : ℕ) {s : BspMotor}

@[simp] theorem duty_withTick (w : Wheel) : (withTick t s).duty w = s.duty w := rfl

@[simp] theorem lastCommandMs_withTick : (withTick t s).lastCommandMs = s.lastCommandMs := rfl

@[simp] theorem gTickMs_withTick : (withTick t s).board.gTickMs = tick32 t := rfl

theorem coherent_withTick (h : s.Coherent) : (withTick t s).Coherent :=
  ⟨h.config, h.silent⟩

end WithTick

theorem coherent_step {o : Observed} (h : o.motor.Coherent) (e : TimedCall) :
    (step o e).motor.Coherent := by
  have htick := coherent_withTick e.tick h
  rw [step]
  cases e.call with
  | setDuty ch duty => exact coherent_bspMotorSetDuty htick ch duty
  | setSignedDuty ch duty => exact coherent_bspMotorSetSignedDuty htick ch duty
  | brake ch => exact coherent_bspMotorBrake htick ch
  | safetyTick => exact coherent_bspMotorSafetyTick htick _

/-- Calls that ask for no duty leave a stopped car stopped. -/
theorem duty_step_of_not_drives {o : Observed} (h : o.motor.Coherent)
    (hduty : ∀ w, o.motor.duty w = 0) {e : TimedCall} (he : ¬ e.call.Drives) (w : Wheel) :
    (step o e).motor.duty w = 0 := by
  have htick := coherent_withTick e.tick h
  rw [step]
  -- a call reaches one motor, and a duty of 0 stays 0 through the clamps
  cases hcall : e.call with
  | setDuty ch duty =>
      have hzero : duty = 0 := by simpa [MotorCall.Drives, hcall] using he
      simp [duty_bspMotorSetDuty htick, hzero, hduty]
  | setSignedDuty ch duty =>
      have hzero : duty = 0 := by simpa [MotorCall.Drives, hcall] using he
      simp [duty_bspMotorSetSignedDuty htick, hzero, hduty]
  | brake ch => simp [duty_bspMotorBrake, hduty]
  | safetyTick =>
      rcases bspMotorSafetyTick_cases htick (tick32 e.time) with ⟨hstop, -⟩ | ⟨hsame, -⟩
      · exact hstop w
      · simp [hsame, hduty]

theorem stopped_exec_of_not_drives {o : Observed} (h : o.motor.Coherent)
    (hduty : ∀ w, o.motor.duty w = 0) {run : List TimedCall}
    (hrun : ∀ e ∈ run, ¬ e.call.Drives) : (exec step o run).motor.Stopped := by
  induction run generalizing o with
  | nil => exact h.stopped hduty
  | cons e run ih =>
      have hkept := duty_step_of_not_drives h hduty (hrun e (by simp))
      exact ih (coherent_step h e) hkept fun e' he' => hrun e' (by simp [he'])

/-! ### The safety tick -/

theorem motor_step_safetyTick (o : Observed) {e : TimedCall} (hcall : e.call = .safetyTick) :
    (step o e).motor = bspMotorSafetyTick (tick32 e.time) (withTick e.tick o.motor) := by
  rw [step, hcall]

section SafetyTick

variable {o : Observed} {e : TimedCall} (h : Fresh o) (ht : WellTimed o e)
  (hcall : e.call = .safetyTick)
include h ht hcall

/-- While a motor has a duty, the age of the recorded command is below one
period of the counter, so the module measures it exactly. -/
theorem age_of_driven {c : Command} (hc : o.command = some c)
    (hdriven : ∃ w, o.motor.duty w ≠ 0) :
    (tick32 e.time - o.motor.lastCommandMs).toNat = e.time - c.recorded := by
  obtain ⟨hrec, hlag, hclock⟩ := h.recent c hc
  have hlast := h.driven c hc hdriven
  have hnext := ht.safety hcall
  have hnow := ht.clock
  rw [h.stamped c hc]
  exact toNat_tick32_sub_of_lt (by omega) (by omega)

theorem stops_of_late (hlate : ∀ c, o.command = some c → c.issued + 100 < e.time) (w : Wheel) :
    (step o e).motor.duty w = 0 := by
  rw [motor_step_safetyTick o hcall]
  rcases bspMotorSafetyTick_cases (coherent_withTick e.tick h.coherent) (tick32 e.time) with
    ⟨hstop, -⟩ | ⟨hsame, hidle | hage⟩
  · exact hstop w
  · rw [hsame]
    exact hidle w
  · -- The module found the command recent; then no motor had a duty.
    rw [hsame, duty_withTick]
    by_contra hw
    cases hc : o.command with
    | none => exact hw (h.idle hc w)
    | some c =>
        have hexact := age_of_driven h ht hcall hc ⟨w, hw⟩
        have hrec := h.recent c hc
        have hlate := hlate c hc
        rw [lastCommandMs_withTick, UInt32.le_iff_toNat_le, hexact] at hage
        simp [motorCommandTimeoutMs] at hage
        omega

theorem keeps_of_recent {c : Command} (hc : o.command = some c)
    (hrecent : e.time ≤ c.recorded + 100) (w : Wheel) :
    (step o e).motor.duty w = o.motor.duty w := by
  rw [motor_step_safetyTick o hcall]
  rcases bspMotorSafetyTick_cases (coherent_withTick e.tick h.coherent) (tick32 e.time) with
    ⟨-, -, hage⟩ | ⟨hsame, -⟩
  · -- a recent command has a small age on the counter as well, wrapped or not
    obtain ⟨hrec, hlag, hclock⟩ := h.recent c hc
    have hnow := ht.clock
    have hexact := toNat_tick32_sub_of_lt (s := c.recorded) (t := e.time) (by omega) (by omega)
    rw [lastCommandMs_withTick, h.stamped c hc, UInt32.lt_iff_toNat_lt, hexact] at hage
    simp [motorCommandTimeoutMs] at hage
    omega
  · rw [hsame, duty_withTick]

end SafetyTick

/-! ### Runs -/

theorem fresh_start (b : Board) (t : ℕ) : Fresh (start b t) where
  coherent := coherent_bspMotorInit b
  safetyTick_le := le_refl t
  idle _ := duty_bspMotorInit b
  stamped c hc := by simp [start] at hc
  recent c hc := by simp [start] at hc
  driven c hc := by simp [start] at hc

/-- A `Set` call stamps the command itself, so nothing of the past matters. -/
theorem fresh_of_command {o : Observed} {e : TimedCall} (h : Fresh o) (ht : WellTimed o e)
    (motor : BspMotor) (hcoherent : motor.Coherent)
    (hstamp : motor.lastCommandMs = tick32 e.tick) :
    Fresh { o with motor, clock := e.time, command := some ⟨e.time, e.tick⟩ } where
  coherent := hcoherent
  safetyTick_le := h.safetyTick_le.trans ht.clock
  idle hc := by simp at hc
  stamped c hc := by
    obtain rfl : _ = c := by simpa using hc
    exact hstamp
  recent c hc := by
    obtain rfl : _ = c := by simpa using hc
    exact ⟨ht.lag.1, ht.lag.2, le_refl e.time⟩
  driven c hc _ := by
    obtain rfl : _ = c := by simpa using hc
    exact (h.safetyTick_le.trans ht.clock).trans (Nat.le_add_right ..)

/-- A brake stops a motor and stamps nothing. -/
theorem fresh_brake {o : Observed} {e : TimedCall} {ch : ℕ} (h : Fresh o) (ht : WellTimed o e)
    (hcall : e.call = .brake ch) : Fresh (step o e) := by
  have hcoherent := coherent_step h.coherent e
  have hduty (w : Wheel) (hzero : o.motor.duty w = 0) : (step o e).motor.duty w = 0 := by
    simp [step, hcall, duty_bspMotorBrake, hzero]
  have hstep : step o e =
      { o with motor := bspMotorBrake ch (withTick e.tick o.motor), clock := e.time } := by
    rw [step, hcall]
  rw [hstep] at hcoherent hduty ⊢
  refine ⟨hcoherent, h.safetyTick_le.trans ht.clock, fun hc w => hduty w (h.idle hc w),
    h.stamped, fun c hc => ?_, fun c hc hdriven => h.driven c hc ?_⟩
  · obtain ⟨hrecorded, hlag, hissued⟩ := h.recent c hc
    exact ⟨hrecorded, hlag, hissued.trans ht.clock⟩
  · obtain ⟨w, hw⟩ := hdriven
    exact ⟨w, fun hzero => hw (hduty w hzero)⟩

theorem fresh_safetyTick {o : Observed} {e : TimedCall} (h : Fresh o) (ht : WellTimed o e)
    (hcall : e.call = .safetyTick) : Fresh (step o e) := by
  have hcoherent := coherent_step h.coherent e
  have hstops := stops_of_late h ht hcall
  have hlast : (step o e).motor.lastCommandMs = o.motor.lastCommandMs := by
    rw [motor_step_safetyTick o hcall]
    rcases bspMotorSafetyTick_cases (coherent_withTick e.tick h.coherent)
      (tick32 e.time) with ⟨-, hlast, -⟩ | ⟨hsame, -⟩
    · rw [hlast, lastCommandMs_withTick]
    · rw [hsame, lastCommandMs_withTick]
  have hcommand : (step o e).command = o.command := by rw [step, hcall]
  have hclock : (step o e).clock = e.time := by rw [step, hcall]
  have htick : (step o e).lastSafetyTick = e.time := by rw [step, hcall]
  refine ⟨hcoherent, by omega, fun hc w => ?_, fun c hc => ?_, fun c hc => ?_,
    fun c hc hdriven => ?_⟩
  · rw [hcommand] at hc
    exact hstops (fun c hc' => by simp [hc] at hc') w
  · rw [hlast]
    exact h.stamped c (hcommand ▸ hc)
  · obtain ⟨hrecorded, hlag, hissued⟩ := h.recent c (hcommand ▸ hc)
    rw [hclock]
    exact ⟨hrecorded, hlag, hissued.trans ht.clock⟩
  · -- A duty that survives the tick was commanded at most 100 ms before it.
    rw [hcommand] at hc
    rw [htick]
    by_contra hlate
    obtain ⟨w, hw⟩ := hdriven
    refine hw (hstops (fun c' hc' => ?_) w)
    obtain rfl : c = c' := by simpa [hc] using hc'
    omega

theorem fresh_step {o : Observed} {e : TimedCall} (h : Fresh o) (ht : WellTimed o e) :
    Fresh (step o e) := by
  have hcoherent := coherent_step h.coherent e
  cases hcall : e.call with
  | setDuty ch duty =>
      simp only [step, hcall] at hcoherent ⊢
      exact fresh_of_command h ht _ hcoherent (by simp)
  | setSignedDuty ch duty =>
      simp only [step, hcall] at hcoherent ⊢
      exact fresh_of_command h ht _ hcoherent (by simp)
  | brake ch => exact fresh_brake h ht hcall
  | safetyTick => exact fresh_safetyTick h ht hcall

/-- The command timeout over any run of any length, the counter wrapping as it
may: a safety tick later than 100 ms after the last `Set` call stops both motors
until a call asks for a duty again, and one within 100 ms of the recorded
command time leaves every duty as it is. -/
theorem timeout_stops_and_keeps (b : Board) (t : ℕ) (run : List TimedCall)
    (htimed : EachStep step WellTimed (start b t) run)
    (pre : List TimedCall) (e : TimedCall) (post : List TimedCall)
    (hrun : run = pre ++ e :: post) (hcall : e.call = .safetyTick) :
    ((∀ c, (exec step (start b t) pre).command = some c → c.issued + 100 < e.time) →
      ∀ quiet rest, post = quiet ++ rest → (∀ e' ∈ quiet, ¬ e'.call.Drives) →
        (exec step (start b t) (pre ++ e :: quiet)).motor.Stopped) ∧
    (∀ c, (exec step (start b t) pre).command = some c → e.time ≤ c.recorded + 100 →
      ∀ w, (exec step (start b t) (pre ++ [e])).motor.duty w =
        (exec step (start b t) pre).motor.duty w) := by
  subst hrun
  have hsplit := eachStep_append.mp htimed
  have hfresh : Fresh (exec step (start b t) pre) :=
    hsplit.1.invariant (fun _ _ => fresh_step) (fresh_start b t)
  have ht : WellTimed (exec step (start b t) pre) e := hsplit.2.1
  refine ⟨?_, ?_⟩
  · intro hlate quiet rest _ hquiet
    have hstop := stops_of_late hfresh ht hcall hlate
    rw [exec_append, exec_cons]
    exact stopped_exec_of_not_drives (coherent_step hfresh.coherent e) hstop hquiet
  · intro c hc hrecent w
    rw [exec_append, exec_cons, exec_nil]
    exact keeps_of_recent hfresh ht hcall hc hrecent w

/-- The rule at work across the wrap of the counter: a command issued just after
`2 ^ 32` ms under a reading from just before it is stopped by the next late tick. -/
theorem timeout_stops_after_wrap :
    (exec step (start Board.atReset (2 ^ 32))
      [⟨2 ^ 32 + 3, 2 ^ 32 - 4, .setSignedDuty 0 (-300)⟩,
        ⟨2 ^ 32 + 500, 2 ^ 32, .safetyTick⟩]).motor.Stopped := by
  have hcommand : (exec step (start Board.atReset (2 ^ 32))
      [⟨2 ^ 32 + 3, 2 ^ 32 - 4, .setSignedDuty 0 (-300)⟩]).command =
        some ⟨2 ^ 32 + 3, 2 ^ 32 - 4⟩ := rfl
  have h := timeout_stops_and_keeps Board.atReset (2 ^ 32)
    [⟨2 ^ 32 + 3, 2 ^ 32 - 4, .setSignedDuty 0 (-300)⟩, ⟨2 ^ 32 + 500, 2 ^ 32, .safetyTick⟩]
    ⟨⟨by decide, by decide, by decide⟩, ⟨by decide, by decide, fun _ => by decide⟩, trivial⟩
    [⟨2 ^ 32 + 3, 2 ^ 32 - 4, .setSignedDuty 0 (-300)⟩] _ [] rfl rfl
  refine h.1 (fun c hc => ?_) [] [] rfl (by simp)
  obtain rfl : _ = c := Option.some.inj (hcommand.symm.trans hc)
  decide

end NuedcFirmware.Modules.MotorTimeout
