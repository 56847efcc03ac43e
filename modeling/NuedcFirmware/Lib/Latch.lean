import Mathlib.Data.List.Induction
import NuedcFirmware.Lib.Streak

/-!
A flag that is set when something has lasted.

A counter goes up at the steps that are counted and back to zero where the streak ends. When
it reaches its limit a flag is set, and stays. The flag tells whether the run has had a
streak of that length at any time (`flag_iff_reached`).
-/

namespace NuedcFirmware.Lib

variable {σ ε : Type*} {step : σ → ε → σ} {lasts counted : σ → ε → Prop}
  [∀ s e, Decidable (counted s e)] {s : σ} {run : List ε} {e : ε} {k : ℕ}

variable (step lasts counted) in
/-- Some first part of the run has ended with a streak of `k`. -/
def Reached (s : σ) (run : List ε) (k : ℕ) : Prop :=
  ∃ before since, run = before ++ since ∧ Streak step lasts counted s before k

theorem reached_of_streak (h : Streak step lasts counted s run k) :
    Reached step lasts counted s run k :=
  ⟨run, [], (List.append_nil run).symm, h⟩

theorem Reached.append (h : Reached step lasts counted s run k) (run' : List ε) :
    Reached step lasts counted s (run ++ run') k := by
  obtain ⟨before, since, rfl, hstreak⟩ := h
  exact ⟨before, since ++ run', List.append_assoc .., hstreak⟩

/-- One step more. -/
theorem reached_snoc :
    Reached step lasts counted s (run ++ [e]) k ↔
      Reached step lasts counted s run k ∨ Streak step lasts counted s (run ++ [e]) k := by
  refine ⟨?_, fun h => h.elim (fun h => h.append [e]) reached_of_streak⟩
  rintro ⟨before, since, hrun, hstreak⟩
  rcases List.eq_nil_or_concat since with rfl | ⟨since, last, rfl⟩
  · rw [List.append_nil] at hrun
    exact Or.inr (hrun ▸ hstreak)
  · rw [List.concat_eq_append, ← List.append_assoc] at hrun
    obtain ⟨rfl, -⟩ := List.append_inj' hrun rfl
    exact Or.inl ⟨before, since, rfl, hstreak⟩

/-- A streak in a later part of the run is one of the whole run. -/
theorem Reached.after {before : List ε} (h : Reached step lasts counted (exec step s before) run k) :
    Reached step lasts counted s (before ++ run) k := by
  obtain ⟨run, since, rfl, early, window, rfl, hlasts, hcount⟩ := h
  rw [← exec_append] at hlasts hcount
  exact ⟨before ++ (early ++ window), since, (List.append_assoc ..).symm, before ++ early, window,
    (List.append_assoc ..).symm, hlasts, hcount⟩

/-- What a step does to the flag and the counter, before and after. -/
structure Latches (lasts counted : Prop) (limit : ℕ) (flag flag' : Prop) (count count' : ℕ) :
    Prop where
  keep : flag → flag'
  reset : ¬ flag → ¬ lasts → ¬ flag' ∧ count' = 0
  skip : ¬ flag → lasts → ¬ counted → ¬ flag' ∧ count' = count
  raise : ¬ flag → lasts → counted → count + 1 < limit → ¬ flag' ∧ count' = count + 1
  set : ¬ flag → lasts → counted → limit ≤ count + 1 → flag'

/-- Until the flag is set it is the counter of a streak, and then it would be at its limit. -/
theorem Latches.counts {lasts counted : Prop} {limit : ℕ} {flag flag' : Prop} {count count' : ℕ}
    (h : Latches lasts counted limit flag flag' count count') (hflag : ¬ flag) (hlt : count < limit) :
    ∃ after, Counts lasts counted limit count after ∧ (flag' ↔ limit ≤ after) ∧
      (¬ flag' → count' = after) := by
  by_cases hlasts : lasts
  · by_cases hcounted : counted
    · by_cases hlimit : count + 1 < limit
      · obtain ⟨hnot, hcount⟩ := h.raise hflag hlasts hcounted hlimit
        refine ⟨count + 1, ⟨fun hn => absurd hlasts hn, fun _ hn => absurd hcounted hn, ?_⟩,
          iff_of_false hnot (by omega), fun _ => hcount⟩
        intro _ _
        omega
      · have hset := h.set hflag hlasts hcounted (by omega)
        refine ⟨limit, ⟨fun hn => absurd hlasts hn, fun _ hn => absurd hcounted hn, ?_⟩,
          iff_of_true hset (Nat.le_refl _), fun hn => absurd hset hn⟩
        intro _ _
        omega
    · obtain ⟨hnot, hcount⟩ := h.skip hflag hlasts hcounted
      exact ⟨count, ⟨fun hn => absurd hlasts hn, fun _ _ => rfl, fun _ hc => absurd hc hcounted⟩,
        iff_of_false hnot (by omega), fun _ => hcount⟩
  · obtain ⟨hnot, hcount⟩ := h.reset hflag hlasts
    exact ⟨0, ⟨fun _ => rfl, fun hl => absurd hl hlasts, fun hl => absurd hl hlasts⟩,
      iff_of_false hnot (by omega), fun _ => hcount⟩

section Flag

variable {limit : ℕ} {flag : σ → Prop} (count : σ → ℕ) {C : σ → ε → Prop}

/-- The flag tells whether the limit has been reached, and until then the counter measures
the streak. -/
theorem flag_and_count (hlimit : 0 < limit)
    (hstep : ∀ s e, C s e →
      Latches (lasts s e) (counted s e) limit (flag s) (flag (step s e)) (count s)
        (count (step s e)))
    (hflag : ¬ flag s) (hcount : count s = 0) (run : List ε) (hrun : EachStep step C s run) :
    (flag (exec step s run) ↔ Reached step lasts counted s run limit) ∧
      (¬ flag (exec step s run) → count (exec step s run) < limit ∧
        ∀ k ≤ limit, k ≤ count (exec step s run) ↔ Streak step lasts counted s run k) := by
  induction run using List.reverseRecOn with
  | nil =>
      have hnone : ∀ k, Streak step lasts counted s [] k → k = 0 := by
        rintro k ⟨before, window, hnil, -, hcount⟩
        obtain ⟨-, rfl⟩ := List.append_eq_nil_iff.mp hnil.symm
        exact Nat.le_zero.mp hcount
      refine ⟨iff_of_false hflag ?_, fun _ => ⟨by rw [exec_nil, hcount]; exact hlimit, ?_⟩⟩
      · rintro ⟨before, since, hnil, hstreak⟩
        obtain ⟨rfl, -⟩ := List.append_eq_nil_iff.mp hnil.symm
        have := hnone _ hstreak
        omega
      · intro k _
        rw [exec_nil, hcount, Nat.le_zero]
        exact ⟨fun hk => hk ▸ streak_zero, hnone k⟩
  | append_singleton run e ih =>
      obtain ⟨hbefore, he⟩ := eachStep_append.mp hrun
      obtain ⟨hreached, hmeasure⟩ := ih hbefore
      have hlatches := hstep _ e he.1
      rw [reached_snoc, exec_append, exec_cons, exec_nil]
      by_cases hset : flag (exec step s run)
      · have hkept := hlatches.keep hset
        exact ⟨iff_of_true hkept (Or.inl (hreached.mp hset)), fun hn => absurd hkept hn⟩
      · obtain ⟨hlt, hstreak⟩ := hmeasure hset
        obtain ⟨after, hcounts, hflag', hcount'⟩ := hlatches.counts hset hlt
        have hafter : ∀ k ≤ limit, k ≤ after ↔ Streak step lasts counted s (run ++ [e]) k :=
          fun k hk => counter_iff_streak hcounts (fun _ => hstreak) hk
        constructor
        · rw [hflag', hafter limit (Nat.le_refl _)]
          exact (or_iff_right fun h => hset (hreached.mpr h)).symm
        · intro hn
          rw [hcount' hn]
          exact ⟨by rw [hflag'] at hn; omega, hafter⟩

end Flag

/-! ### One flag after another -/

section Second

variable {limit : ℕ} {first second : σ → Prop} (count : σ → ℕ) {C : σ → ε → Prop}

/-- Where a property holds at last and not at first, some step has brought it about. -/
theorem exists_step_to (hs : ¬ first s) (h : first (exec step s run)) :
    ∃ before e since, run = before ++ e :: since ∧ ¬ first (exec step s before) ∧
      first (exec step s (before ++ [e])) := by
  induction run using List.reverseRecOn with
  | nil => exact absurd h hs
  | append_singleton run e ih =>
      by_cases hrun : first (exec step s run)
      · obtain ⟨before, e', since, rfl, hbefore, hafter⟩ := ih hrun
        exact ⟨before, e', since ++ [e], by simp, hbefore, hafter⟩
      · exact ⟨run, e, [], rfl, hrun, h⟩

/-- Two flags share a counter, and the second one is only looked at when the first is set. It
tells whether its limit has been reached after the first was set. -/
theorem second_flag_iff (hlimit : 0 < limit)
    (hkeep : ∀ s e, C s e → first s → first (step s e))
    (hwait : ∀ s e, C s e → ¬ first s → ¬ second s →
      ¬ second (step s e) ∧ (first (step s e) → count (step s e) = 0))
    (hstep : ∀ s e, C s e → first s →
      Latches (lasts s e) (counted s e) limit (second s) (second (step s e)) (count s)
        (count (step s e)))
    (hfirst : ¬ first s) (hsecond : ¬ second s) (hrun : EachStep step C s run) :
    second (exec step s run) ↔ ∃ before since, run = before ++ since ∧
      first (exec step s before) ∧ Reached step lasts counted (exec step s before) since limit := by
  have hkeeps : ∀ s run, EachStep step C s run → first s → first (exec step s run) :=
    fun s run h => h.invariant fun s e hs he => hkeep s e he hs
  have hwaits : ∀ run, EachStep step C s run → ¬ first (exec step s run) →
      ¬ second (exec step s run) := by
    intro run hrun hnot
    induction run using List.reverseRecOn with
    | nil => exact hsecond
    | append_singleton run e ih =>
        obtain ⟨hbefore, he⟩ := eachStep_append.mp hrun
        rw [exec_append] at hnot ⊢
        have hnot' : ¬ first (exec step s run) := fun h => hnot (hkeep _ e he.1 h)
        exact (hwait _ e he.1 hnot' (ih hbefore hnot')).1
  by_cases hset : first (exec step s run)
  · obtain ⟨before, e, since, rfl, hnot, hfirst'⟩ := exists_step_to hfirst hset
    obtain ⟨hbefore, he, hsince⟩ := eachStep_append.mp hrun
    have hbegin := hwait _ e he hnot (hwaits before hbefore hnot)
    have hstart : exec step s (before ++ [e]) = step (exec step s before) e := exec_append ..
    rw [hstart] at hfirst'
    -- from here on the second flag is looked at
    have hguard : EachStep step (fun s e => C s e ∧ first s) (step (exec step s before) e) since :=
      hsince.imp (I := first) (fun s e hI hC => hkeep s e hC hI) (fun s e hI hC => ⟨hC, hI⟩) hfirst'
    have hflag := (flag_and_count count hlimit (fun s e h => hstep s e h.1 h.2) hbegin.1
      (hbegin.2 hfirst') since hguard).1
    rw [exec_append, exec_cons, hflag]
    constructor
    · intro hreached
      exact ⟨before ++ [e], since, by simp, by rw [hstart]; exact hfirst',
        by rw [hstart]; exact hreached⟩
    · rintro ⟨before', since', hsplit, hfirst'', hreached⟩
      rcases List.append_eq_append_iff.mp hsplit with ⟨between, rfl, hbetween⟩ | ⟨rest, rfl, -⟩
      · cases between with
        | nil =>
            rw [List.append_nil] at hfirst''
            exact absurd hfirst'' hnot
        | cons e' between =>
            obtain ⟨rfl, rfl⟩ := List.cons.inj hbetween
            rw [exec_append, exec_cons] at hreached
            exact hreached.after
      · obtain ⟨-, hrest⟩ := eachStep_append.mp hbefore
        rw [exec_append] at hnot
        exact absurd (hkeeps _ rest hrest hfirst'') hnot
  · refine iff_of_false (hwaits run hrun hset) ?_
    rintro ⟨before, since, rfl, hbefore, -⟩
    obtain ⟨-, hsince⟩ := eachStep_append.mp hrun
    rw [exec_append] at hset
    exact hset (hkeeps _ since hsince hbefore)

end Second

end NuedcFirmware.Lib
