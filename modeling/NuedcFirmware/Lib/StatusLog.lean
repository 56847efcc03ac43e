import NuedcFirmware.Lib.Driver
import Mathlib.Data.Int.Bitwise

/-!
Drivers that accumulate a status, over a state that keeps a log.

Such a driver goes on after a failure: it starts from the status 0 and puts the bits of
every other status into its own. `StatusM` is the body of one, with the status as a state;
`returnStatus` makes a function with a result of it, and `orStatus` calls one.

`Reports log good p Q` says what the status is worth: wherever `p` ends it has added entries
to the log, its status is 0 if and only if all of them are good ones, and in that case they
are as `Q` says. It is put together from what the calls report.

`Ends I p` says that `p` always ends, and keeps an invariant.
-/

namespace NuedcFirmware.Lib

variable {σ α β : Type} {τ : Type*}

/-! ### Partial correctness -/

/-- Where the driver ends, `Q` holds of the result. -/
def Yields (p : Driver σ α) (s : σ) (Q : α → σ → Prop) : Prop := ∀ r ∈ p.run s, Q r.1 r.2

@[simp] theorem yields_pure {a : α} {s : σ} {Q : α → σ → Prop} :
    Yields (pure a) s Q ↔ Q a s := by
  simp [Yields]

@[simp] theorem yields_bind {p : Driver σ α} {f : α → Driver σ β} {s : σ} {Q : β → σ → Prop} :
    Yields (p >>= f) s Q ↔ Yields p s fun a s' => Yields (f a) s' Q := by
  simp only [Yields, mem_run_bind]
  constructor
  · intro h r' hr' r hr
    exact h r ⟨r', hr', hr⟩
  · rintro h r ⟨r', hr', hr⟩
    exact h r' hr' r hr

theorem Yields.imp {p : Driver σ α} {s : σ} {Q Q' : α → σ → Prop} (h : Yields p s Q)
    (himp : ∀ a s', Q a s' → Q' a s') : Yields p s Q' :=
  fun r hr => himp _ _ (h r hr)

theorem Yields.and_ensures {p : Driver σ α} {s : σ} {Q Q' : α → σ → Prop} (h : Yields p s Q)
    (h' : Ensures p s Q') : Ensures p s fun a s' => Q a s' ∧ Q' a s' := by
  obtain ⟨r, hr, hQ'⟩ := h'
  exact ⟨r, hr, h r hr, hQ'⟩

/-! ### The status -/

/-- No bit of a failure is lost. -/
theorem lor_eq_zero_iff {a b : ℤ} : a.lor b = 0 ↔ a = 0 ∧ b = 0 := by
  cases a with
  | ofNat m =>
      cases b with
      | ofNat n => simp [Int.lor, Nat.or_eq_zero_iff]
      | negSucc n => simp [Int.lor]
  | negSucc m => cases b <;> simp [Int.lor]

@[simp] theorem zero_lor (a : ℤ) : Int.lor 0 a = a := by
  cases a with
  | ofNat n => simp [Int.lor]
  | negSucc n =>
      show Int.negSucc (Nat.ldiff n 0) = Int.negSucc n
      congr 1
      exact Nat.eq_of_testBit_eq fun i => by simp [Nat.testBit_ldiff]

/-- The body of a function that accumulates a status. -/
abbrev StatusM (σ α : Type) := StateT ℤ (Driver σ) α

/-- `int status = 0; …; return status;`, with a value besides. -/
def returnStatus (body : StatusM σ α) : Driver σ (α × ℤ) := body.run 0

/-- `status |= p`, with the value besides. -/
def orStatus (p : Driver σ (α × ℤ)) : StatusM σ α := fun status => do
  let r ← p
  return (r.1, status.lor r.2)

@[simp] theorem yields_orStatus {p : Driver σ (α × ℤ)} {status : ℤ} {s : σ}
    {Q : α × ℤ → σ → Prop} :
    Yields ((orStatus p).run status) s Q ↔
      Yields p s fun r s' => Q (r.1, status.lor r.2) s' := by
  show Yields (p >>= fun r => pure (r.1, status.lor r.2)) s Q ↔ _
  simp only [yields_bind, yields_pure]

@[simp] theorem yields_lift {p : Driver σ α} {status : ℤ} {s : σ} {Q : α × ℤ → σ → Prop} :
    Yields ((liftM p : StatusM σ α).run status) s Q ↔
      Yields p s fun a s' => Q (a, status) s' := by
  show Yields (p >>= fun a => pure (a, status)) s Q ↔ _
  simp only [yields_bind, yields_pure]

/-- The function is left where the status is not 0. -/
theorem yields_leave {body : StatusM σ α} {a : α} {status : ℤ} {s : σ} {Q : α × ℤ → σ → Prop} :
    Yields ((do if (← get) ≠ 0 then return a else body : StatusM σ α).run status) s Q ↔
      if status ≠ 0 then Q (a, status) s else Yields (body.run status) s Q := by
  show Yields ((if status ≠ 0 then pure a else body : StatusM σ α).run status) s Q ↔ _
  by_cases h : status ≠ 0
  · rw [if_pos h, if_pos h, StateT.run_pure, yields_pure]
  · rw [if_neg h, if_neg h]

/-- The function is left with an error of its own. -/
theorem yields_fail {body : StatusM σ α} {a : α} {error status : ℤ} {P : Prop} [Decidable P] {s : σ}
    {Q : α × ℤ → σ → Prop} :
    Yields ((do if (← get) ≠ 0 ∨ P then do set error; return a else body :
        StatusM σ α).run status) s Q ↔
      if status ≠ 0 ∨ P then Q (a, error) s else Yields (body.run status) s Q := by
  show Yields ((if status ≠ 0 ∨ P then do set error; return a else body :
    StatusM σ α).run status) s Q ↔ _
  by_cases h : status ≠ 0 ∨ P
  · rw [if_pos h, if_pos h]
    show Yields (pure (a, error)) s Q ↔ _
    rw [yields_pure]
  · rw [if_neg h, if_neg h]

/-! ### Ending -/

section Ending

variable (I : σ → Prop)

/-- From where `I` holds the driver ends, and `I` holds again. -/
def Ends (p : Driver σ α) : Prop := ∀ s, I s → Ensures p s fun _ s' => I s'

/-- The same of a body, from any status. -/
def EndsBody (body : StatusM σ α) : Prop := ∀ status, Ends I (body.run status)

variable {I}

theorem ends_pure (a : α) : Ends I (pure a : Driver σ α) := fun _ hs => ensures_pure.mpr hs

theorem Ends.bind {p : Driver σ α} {f : α → Driver σ β} (hp : Ends I p) (hf : ∀ a, Ends I (f a)) :
    Ends I (p >>= f) := by
  intro s hs
  rw [ensures_bind]
  exact (hp s hs).imp fun a s' hs' => hf a s' hs'

theorem Ends.ite {p q : Driver σ α} {P : Prop} [Decidable P] (hp : Ends I p) (hq : Ends I q) :
    Ends I (if P then p else q) := by
  split
  · exact hp
  · exact hq

theorem endsBody_pure (a : α) : EndsBody I (pure a : StatusM σ α) := fun status =>
  ends_pure (a, status)

theorem endsBody_get : EndsBody I (get : StatusM σ ℤ) := fun status => ends_pure (status, status)

theorem endsBody_set (status : ℤ) : EndsBody I (set status : StatusM σ PUnit) := fun _ =>
  ends_pure (PUnit.unit, status)

theorem EndsBody.bind {body : StatusM σ α} {f : α → StatusM σ β} (hbody : EndsBody I body)
    (hf : ∀ a, EndsBody I (f a)) : EndsBody I (body >>= f) := by
  intro status
  rw [StateT.run_bind]
  exact (hbody status).bind fun r => hf r.1 r.2

theorem EndsBody.ite {p q : StatusM σ α} {P : Prop} [Decidable P] (hp : EndsBody I p)
    (hq : EndsBody I q) : EndsBody I (if P then p else q) := by
  split
  · exact hp
  · exact hq

theorem Ends.lift {p : Driver σ α} (h : Ends I p) : EndsBody I (liftM p : StatusM σ α) := by
  intro status
  exact h.bind fun a => ends_pure (a, status)

theorem Ends.orStatus {p : Driver σ (α × ℤ)} (h : Ends I p) : EndsBody I (orStatus p) := by
  intro status
  exact h.bind fun r => ends_pure (r.1, status.lor r.2)

theorem EndsBody.returnStatus {body : StatusM σ α} (h : EndsBody I body) :
    Ends I (returnStatus body) :=
  h 0

end Ending

/-! ### What the status says of the log -/

section Log

variable (log : σ → List τ) (good : τ → Prop)

/-- From the status 0 the driver ends in 0 if and only if what it has added to the log is all
good; `Q` holds of the value and of what has been added then. -/
def Reports (p : Driver σ (α × ℤ)) (Q : α → List τ → Prop) : Prop :=
  ∀ s, Yields p s fun r s' => ∃ out, log s' = log s ++ out ∧
    (r.2 = 0 ↔ ∀ t ∈ out, good t) ∧ (r.2 = 0 → Q r.1 out)

/-- The same of a body, from any status. -/
def Accounts (body : StatusM σ α) (Q : α → List τ → Prop) : Prop :=
  ∀ status s, Yields (body.run status) s fun r s' => ∃ out, log s' = log s ++ out ∧
    (r.2 = 0 ↔ status = 0 ∧ ∀ t ∈ out, good t) ∧ (r.2 = 0 → Q r.1 out)

variable {log good} {Q Q' : α → List τ → Prop}

theorem Reports.imp {p : Driver σ (α × ℤ)} (h : Reports log good p Q)
    (himp : ∀ a out, Q a out → Q' a out) : Reports log good p Q' := by
  intro s
  refine (h s).imp ?_
  rintro r s' ⟨out, hlog, hstatus, hout⟩
  exact ⟨out, hlog, hstatus, fun h => himp _ _ (hout h)⟩

theorem Accounts.imp {body : StatusM σ α} (h : Accounts log good body Q)
    (himp : ∀ a out, Q a out → Q' a out) : Accounts log good body Q' := by
  intro status s
  refine (h status s).imp ?_
  rintro r s' ⟨out, hlog, hstatus, hout⟩
  exact ⟨out, hlog, hstatus, fun h => himp _ _ (hout h)⟩

theorem Accounts.reports {body : StatusM σ α} (h : Accounts log good body Q) :
    Reports log good (returnStatus body) Q := by
  intro s
  refine (h 0 s).imp ?_
  rintro r s' ⟨out, hlog, hstatus, hout⟩
  exact ⟨out, hlog, by simpa using hstatus, hout⟩

theorem Reports.accounts {p : Driver σ (α × ℤ)} (h : Reports log good p Q) :
    Accounts log good (orStatus p) Q := by
  intro status s
  rw [yields_orStatus]
  refine (h s).imp ?_
  rintro r s' ⟨out, hlog, hstatus, hout⟩
  refine ⟨out, hlog, ?_, fun h => hout (lor_eq_zero_iff.mp h).2⟩
  rw [lor_eq_zero_iff, hstatus]

theorem accounts_pure (a : α) : Accounts log good (pure a : StatusM σ α) fun a' out =>
    a' = a ∧ out = [] := by
  intro status s
  rw [StateT.run_pure, yields_pure]
  exact ⟨[], by simp, by simp, fun _ => ⟨rfl, rfl⟩⟩

theorem Accounts.bind {body : StatusM σ α} {f : α → StatusM σ β} {R : α → β → List τ → Prop}
    (hbody : Accounts log good body Q) (hf : ∀ a, Accounts log good (f a) (R a)) :
    Accounts log good (body >>= f) fun b out => ∃ a out₁ out₂, out = out₁ ++ out₂ ∧
      Q a out₁ ∧ R a b out₂ := by
  intro status s
  rw [StateT.run_bind, yields_bind]
  refine (hbody status s).imp ?_
  rintro r s' ⟨out₁, hlog₁, hstatus₁, hout₁⟩
  refine (hf r.1 r.2 s').imp ?_
  rintro r' s'' ⟨out₂, hlog₂, hstatus₂, hout₂⟩
  refine ⟨out₁ ++ out₂, by rw [hlog₂, hlog₁, List.append_assoc], ?_, fun h => ?_⟩
  · rw [hstatus₂, hstatus₁, List.forall_mem_append, and_assoc]
  · exact ⟨r.1, out₁, out₂, rfl, hout₁ (hstatus₂.mp h).1, hout₂ h⟩

/-- What is not logged, as a delay is not. -/
theorem accounts_lift {p : Driver σ α} (hp : ∀ s, Yields p s fun _ s' => log s' = log s) :
    Accounts log good (liftM p : StatusM σ α) fun _ out => out = [] := by
  intro status s
  rw [yields_lift]
  refine (hp s).imp fun a s' hlog => ?_
  exact ⟨[], by simp [hlog], by simp, fun _ => rfl⟩

theorem Accounts.leave {body : StatusM σ α} (h : Accounts log good body Q) (a : α) :
    Accounts log good (do if (← get) ≠ 0 then return a else body) Q := by
  intro status s
  rw [yields_leave]
  by_cases hstatus : status = 0
  · rw [if_neg (by simpa using hstatus)]
    exact h status s
  · rw [if_pos hstatus]
    exact ⟨[], by simp, by simp [hstatus], fun h => absurd h hstatus⟩

end Log

end NuedcFirmware.Lib
