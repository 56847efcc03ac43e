import Mathlib.Data.Option.Basic
import Mathlib.Order.Basic

/-!
Device drivers: programs that read and write the registers of a device.

The device is a state of any type, an access to a register a function of it, and a driver
a sequence of such accesses; it has no result where a loop has not ended within its fuel.
`Ensures p s Q` says that `p` ends in `s` and what holds of its result then. Drivers wait
in two ways, and there is one rule for each: `poll` gives up after a number of readings,
so an invariant is all it needs; `waitClear` does not, and it ends only where a potential
is used up.

`Costs` measures a driver, in a unit that the state counts. `Emits` says what a driver adds
to a log that the state keeps, of what has been sent for example.
-/

namespace NuedcFirmware.Lib

variable {σ α β : Type}

abbrev Driver (σ α : Type) := StateT σ Option α

/-- The driver ends, with a result of which `Q` holds. -/
def Ensures (p : Driver σ α) (s : σ) (Q : α → σ → Prop) : Prop := ∃ r ∈ p.run s, Q r.1 r.2

/-- An access to a register. -/
def access (f : σ → α × σ) : Driver σ α := fun s => some (f s)

@[simp] theorem ensures_access {f : σ → α × σ} {s : σ} {Q : α → σ → Prop} :
    Ensures (access f) s Q ↔ Q (f s).1 (f s).2 := by
  simp [Ensures, access, StateT.run]

@[simp] theorem ensures_pure {a : α} {s : σ} {Q : α → σ → Prop} :
    Ensures (pure a) s Q ↔ Q a s := by
  simp [Ensures]

theorem mem_run_bind {p : Driver σ α} {f : α → Driver σ β} {s : σ} {r : β × σ} :
    r ∈ (p >>= f).run s ↔ ∃ r' ∈ p.run s, r ∈ (f r'.1).run r'.2 := by
  rw [StateT.run_bind]
  exact Option.bind_eq_some_iff

@[simp] theorem ensures_bind {p : Driver σ α} {f : α → Driver σ β} {s : σ} {Q : β → σ → Prop} :
    Ensures (p >>= f) s Q ↔ Ensures p s fun a s' => Ensures (f a) s' Q := by
  simp only [Ensures, mem_run_bind]
  constructor
  · rintro ⟨r, ⟨r', hr', hr⟩, hQ⟩
    exact ⟨r', hr', r, hr, hQ⟩
  · rintro ⟨r', hr', r, hr, hQ⟩
    exact ⟨r, ⟨r', hr', hr⟩, hQ⟩

theorem Ensures.imp {p : Driver σ α} {s : σ} {Q Q' : α → σ → Prop} (h : Ensures p s Q)
    (himp : ∀ a s', Q a s' → Q' a s') : Ensures p s Q' := by
  obtain ⟨r, hr, hQ⟩ := h
  exact ⟨r, hr, himp _ _ hQ⟩

/-- There is one result. -/
theorem Ensures.of_mem {p : Driver σ α} {s : σ} {Q : α → σ → Prop} (h : Ensures p s Q)
    {r : α × σ} (hr : r ∈ p.run s) : Q r.1 r.2 := by
  obtain ⟨r', hr', hQ⟩ := h
  rw [Option.mem_unique hr hr']
  exact hQ

theorem Ensures.and {p : Driver σ α} {s : σ} {Q Q' : α → σ → Prop} (h : Ensures p s Q)
    (h' : Ensures p s Q') : Ensures p s fun a s' => Q a s' ∧ Q' a s' := by
  obtain ⟨r, hr, hQ⟩ := h
  exact ⟨r, hr, hQ, h'.of_mem hr⟩

/-! ### Waiting with a limit -/

/-- Reads the flag until it is clear, `timeout` more times after the first at most; whether
it was found clear. -/
def poll (flag : Driver σ Bool) : ℕ → Driver σ Bool
  | 0 => do
      if ← flag then return false else return true
  | timeout + 1 => do
      if ← flag then poll flag timeout else return true

/-- What a set flag keeps holds when the wait is given up, and what a clear one gives
holds when it is not. -/
theorem ensures_poll {flag : Driver σ Bool} {I Q : σ → Prop}
    (hflag : ∀ s, I s → Ensures flag s fun b s' => if b then I s' else Q s') {s : σ} (hs : I s)
    (timeout : ℕ) : Ensures (poll flag timeout) s fun ok s' => if ok then Q s' else I s' := by
  induction timeout generalizing s with
  | zero =>
      rw [poll, ensures_bind]
      refine (hflag s hs).imp fun b s' h => ?_
      cases b <;> simpa using h
  | succ timeout ih =>
      rw [poll, ensures_bind]
      refine (hflag s hs).imp fun b s' h => ?_
      cases b with
      | false => simpa using h
      | true => exact ih h

/-- A flag that is found clear at once. -/
theorem ensures_poll_clear {flag : Driver σ Bool} {Q : σ → Prop} {s : σ}
    (hflag : Ensures flag s fun b s' => b = false ∧ Q s') (timeout : ℕ) :
    Ensures (poll flag timeout) s fun ok s' => ok = true ∧ Q s' := by
  cases timeout with
  | zero =>
      rw [poll, ensures_bind]
      refine hflag.imp ?_
      rintro _ s' ⟨rfl, hs'⟩
      simpa using hs'
  | succ timeout =>
      rw [poll, ensures_bind]
      refine hflag.imp ?_
      rintro _ s' ⟨rfl, hs'⟩
      simpa using hs'

/-! ### Waiting without a limit -/

/-- Reads the flag until it is clear, with `body` after every reading that finds it set. -/
def waitClear (flag : Driver σ Bool) (body : Driver σ Unit) : ℕ → Driver σ Unit
  | 0 => fun _ => none
  | fuel + 1 => do
      if ← flag then do body; waitClear flag body fuel else return ()

/-- It ends where every round uses up some of a potential. -/
theorem ensures_waitClear {flag : Driver σ Bool} {body : Driver σ Unit} {I Q : σ → Prop}
    {Φ : σ → ℕ}
    (hround : ∀ s, I s → Ensures flag s fun b s' =>
      if b then Ensures body s' fun _ s'' => I s'' ∧ Φ s'' < Φ s else Q s')
    {s : σ} (hs : I s) {fuel : ℕ} (hfuel : Φ s < fuel) :
    Ensures (waitClear flag body fuel) s fun _ => Q := by
  induction fuel generalizing s with
  | zero => omega
  | succ fuel ih =>
      rw [waitClear, ensures_bind]
      refine (hround s hs).imp fun b s' h => ?_
      cases b with
      | false => simpa using h
      | true =>
          simp only [if_true, ensures_bind] at h ⊢
          refine h.imp fun _ s'' hround' => ?_
          exact ih hround'.1 (by omega)

/-- Where it ends, the flag has been found clear. -/
theorem of_mem_waitClear {flag : Driver σ Bool} {body : Driver σ Unit} {I Q : σ → Prop}
    (hround : ∀ s, I s → ∀ r ∈ flag.run s,
      if r.1 then ∀ r' ∈ body.run r.2, I r'.2 else Q r.2)
    {s : σ} (hs : I s) {fuel : ℕ} {r : Unit × σ} (hr : r ∈ (waitClear flag body fuel).run s) :
    Q r.2 := by
  induction fuel generalizing s with
  | zero => exact absurd hr (Option.not_mem_none r)
  | succ fuel ih =>
      rw [waitClear, mem_run_bind] at hr
      obtain ⟨r₁, hr₁, hr⟩ := hr
      have h := hround s hs r₁ hr₁
      cases hflag : r₁.1 with
      | false =>
          rw [hflag, if_neg Bool.false_ne_true] at h hr
          obtain rfl : ((), r₁.2) = r := Option.some.inj hr
          exact h
      | true =>
          rw [hflag, if_pos rfl] at h hr
          obtain ⟨r₂, hr₂, hr⟩ := mem_run_bind.mp hr
          exact ih (h r₂ hr₂) hr

/-! ### Costs -/

/-- From every state the driver ends, and takes `n` at most of what the state counts. -/
def Costs (count : σ → ℕ) (n : ℕ) (p : Driver σ α) : Prop :=
  ∀ s, Ensures p s fun _ s' => count s ≤ count s' ∧ count s' ≤ count s + n

section Costs

variable {count : σ → ℕ} {n m : ℕ}

theorem costs_pure (a : α) : Costs count 0 (pure a : Driver σ α) := by
  intro s
  simp

theorem Costs.mono {p : Driver σ α} (h : Costs count n p) (hnm : n ≤ m) : Costs count m p := by
  intro s
  exact (h s).imp fun _ s' hs => by omega

theorem Costs.bind {p : Driver σ α} {f : α → Driver σ β} (hp : Costs count n p)
    (hf : ∀ a, Costs count m (f a)) : Costs count (n + m) (p >>= f) := by
  intro s
  rw [ensures_bind]
  refine (hp s).imp fun a s' hs' => ?_
  exact (hf a s').imp fun b s'' hs'' => by omega

theorem costs_poll {flag : Driver σ Bool} (h : Costs count n flag) (timeout : ℕ) :
    Costs count ((timeout + 1) * n) (poll flag timeout) := by
  induction timeout with
  | zero =>
      rw [poll]
      refine (h.bind (m := 0) fun b => ?_).mono (by omega)
      cases b <;> exact costs_pure _
  | succ timeout ih =>
      rw [poll]
      rw [Nat.succ_mul, Nat.add_comm]
      refine h.bind fun b => ?_
      cases b with
      | false => exact (costs_pure _).mono (Nat.zero_le _)
      | true => exact ih

end Costs

/-! ### Logs -/

/-- From every state the driver ends with the result `a`, and adds `out` to the log. -/
def Emits {ω : Type*} (log : σ → List ω) (p : Driver σ α) (a : α) (out : List ω) : Prop :=
  ∀ s, Ensures p s fun a' s' => a' = a ∧ log s' = log s ++ out

section Logs

variable {ω : Type*} {log : σ → List ω} {out out' : List ω}

theorem emits_pure (a : α) : Emits log (pure a : Driver σ α) a [] := by
  intro s
  simp

theorem Emits.bind {p : Driver σ α} {f : α → Driver σ β} {a : α} {b : β}
    (hp : Emits log p a out) (hf : Emits log (f a) b out') :
    Emits log (p >>= f) b (out ++ out') := by
  intro s
  rw [ensures_bind]
  refine (hp s).imp ?_
  rintro _ s' ⟨rfl, hlog⟩
  refine (hf s').imp fun b' s'' h => ⟨h.1, ?_⟩
  rw [h.2, hlog, List.append_assoc]

end Logs

end NuedcFirmware.Lib
