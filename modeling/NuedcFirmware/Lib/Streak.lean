import NuedcFirmware.Lib.Run

/-!
How long something has lasted.

Some of the steps of a run are counted, and a step may end what has lasted. A run has a
streak of `k` when it ends with steps of which none ended it and `k` at least were counted.
A counter that saturates measures the streak: it begins at zero, goes back to zero where a
step ends the streak, and goes up where a step is counted, as far as its limit
(`counter_iff_streak`).
-/

namespace NuedcFirmware.Lib

variable {σ ε : Type*} (step : σ → ε → σ) (lasts counted : σ → ε → Prop)

section Count

variable [∀ s e, Decidable (counted s e)]

/-- How many steps of the run are counted. -/
def countSteps : σ → List ε → ℕ
  | _, [] => 0
  | s, e :: run => (if counted s e then 1 else 0) + countSteps (step s e) run

@[simp] theorem countSteps_nil (s : σ) : countSteps step counted s [] = 0 := rfl

@[simp] theorem countSteps_cons (s : σ) (e : ε) (run : List ε) :
    countSteps step counted s (e :: run) =
      (if counted s e then 1 else 0) + countSteps step counted (step s e) run := rfl

theorem countSteps_append (s : σ) (run run' : List ε) :
    countSteps step counted s (run ++ run') =
      countSteps step counted s run + countSteps step counted (exec step s run) run' := by
  induction run generalizing s with
  | nil => simp
  | cons e run ih => simp [ih, Nat.add_assoc]

end Count

variable [∀ s e, Decidable (counted s e)]

/-- The run ends with steps that let the streak last, `k` counted ones at least among them. -/
def Streak (s : σ) (run : List ε) (k : ℕ) : Prop :=
  ∃ before window, run = before ++ window ∧
    EachStep step lasts (exec step s before) window ∧
    k ≤ countSteps step counted (exec step s before) window

variable {step lasts counted} {s : σ} {run : List ε} {e : ε} {k : ℕ}

theorem streak_zero : Streak step lasts counted s run 0 :=
  ⟨run, [], (List.append_nil run).symm, trivial, Nat.zero_le _⟩

theorem Streak.mono {k' : ℕ} (h : Streak step lasts counted s run k) (hk : k' ≤ k) :
    Streak step lasts counted s run k' := by
  obtain ⟨before, window, hrun, hlasts, hcount⟩ := h
  exact ⟨before, window, hrun, hlasts, Nat.le_trans hk hcount⟩

/-- One step more. -/
theorem streak_snoc :
    Streak step lasts counted s (run ++ [e]) k ↔
      k = 0 ∨ lasts (exec step s run) e ∧
        Streak step lasts counted s run (k - if counted (exec step s run) e then 1 else 0) := by
  constructor
  · rintro ⟨before, window, hrun, hlasts, hcount⟩
    rcases List.eq_nil_or_concat window with rfl | ⟨window, e', rfl⟩
    · exact Or.inl (Nat.le_zero.mp hcount)
    · rw [List.concat_eq_append, ← List.append_assoc] at hrun
      obtain ⟨rfl, hlast⟩ := List.append_inj' hrun rfl
      obtain rfl := List.singleton_inj.mp hlast
      rw [List.concat_eq_append] at hlasts hcount
      rw [eachStep_append, eachStep_cons] at hlasts
      rw [countSteps_append, countSteps_cons, countSteps_nil] at hcount
      rw [exec_append]
      exact Or.inr ⟨hlasts.2.1, before, window, rfl, hlasts.1, by omega⟩
  · rintro (rfl | ⟨hlasts, before, window, rfl, hwindow, hcount⟩)
    · exact streak_zero
    · rw [exec_append] at hlasts hcount
      refine ⟨before, window ++ [e], List.append_assoc .., ?_, ?_⟩
      · exact eachStep_append.mpr ⟨hwindow, hlasts, trivial⟩
      · rw [countSteps_append, countSteps_cons, countSteps_nil]
        omega

/-- What a step does to a counter with the given limit. -/
structure Counts (lasts counted : Prop) (limit before after : ℕ) : Prop where
  reset : ¬ lasts → after = 0
  keep : lasts → ¬ counted → after = before
  count : lasts → counted → after = min (before + 1) limit

/-- After a step too, the counter is at `k` if the streak is, up to the limit. -/
theorem counter_iff_streak {limit before after : ℕ}
    (hsteps : Counts (lasts (exec step s run) e) (counted (exec step s run) e) limit before after)
    (hbefore : lasts (exec step s run) e →
      ∀ k ≤ limit, k ≤ before ↔ Streak step lasts counted s run k) (hk : k ≤ limit) :
    k ≤ after ↔ Streak step lasts counted s (run ++ [e]) k := by
  rw [streak_snoc]
  by_cases hlasts : lasts (exec step s run) e
  · rw [and_iff_right hlasts, ← hbefore hlasts _ (by omega)]
    split_ifs with hcounted
    · have hafter := hsteps.count hlasts hcounted
      omega
    · have hafter := hsteps.keep hlasts hcounted
      omega
  · have hafter := hsteps.reset hlasts
    rw [or_iff_left fun h => hlasts h.1]
    omega

end NuedcFirmware.Lib
