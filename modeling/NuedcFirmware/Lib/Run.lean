import Mathlib.Data.List.Basic
import Mathlib.Order.Basic

/-!
Runs of a deterministic transition system.

A system is a step function `step : σ → ε → σ`; a run is the list of the events
it takes, in order. Two judgments are made about a run: `EachStep C` says that
every event of it, together with the state it is taken in, satisfies `C`, and
`EachState P` says that every state it passes through satisfies `P`.

Nearly every statement about a whole run is one of three inductions, and they
are made once here: an invariant kept by the steps that meet a guard holds in
every state of a run whose steps all meet it (`EachStep.invariant`); a step
property that the invariant gives back from the guard holds at every step
(`EachStep.imp`); and where, under the invariant, property and guard are the
same at each single step, they are the same for the whole run
(`eachStep_congr`).
-/

namespace NuedcFirmware.Lib

variable {σ ε : Type*} (step : σ → ε → σ)

/-- The state a run ends in. -/
def exec (s : σ) (run : List ε) : σ := run.foldl step s

@[simp] theorem exec_nil (s : σ) : exec step s [] = s := rfl

@[simp] theorem exec_cons (s : σ) (e : ε) (run : List ε) :
    exec step s (e :: run) = exec step (step s e) run := rfl

@[simp] theorem exec_append (s : σ) (run run' : List ε) :
    exec step s (run ++ run') = exec step (exec step s run) run' :=
  List.foldl_append ..

/-- Every event of the run satisfies `C` in the state it is taken in. -/
def EachStep (C : σ → ε → Prop) : σ → List ε → Prop
  | _, [] => True
  | s, e :: run => C s e ∧ EachStep C (step s e) run

/-- Every state the run passes through satisfies `P`, the first and the last
included. -/
def EachState (P : σ → Prop) (s : σ) (run : List ε) : Prop :=
  ∀ pre post, run = pre ++ post → P (exec step s pre)

variable {step} {C D : σ → ε → Prop} {P I : σ → Prop} {s : σ} {run : List ε}

@[simp] theorem eachStep_nil : EachStep step C s [] := trivial

@[simp] theorem eachStep_cons {e : ε} :
    EachStep step C s (e :: run) ↔ C s e ∧ EachStep step C (step s e) run := Iff.rfl

@[simp] theorem eachStep_append {run' : List ε} :
    EachStep step C s (run ++ run') ↔
      EachStep step C s run ∧ EachStep step C (exec step s run) run' := by
  induction run generalizing s with
  | nil => simp
  | cons e run ih => simp [ih, and_assoc]

/-- A step property along a run, by where the run can be cut. -/
theorem eachStep_iff_of_append :
    EachStep step C s run ↔
      ∀ before e since, run = before ++ e :: since → C (exec step s before) e := by
  induction run generalizing s with
  | nil => exact iff_of_true trivial fun before _ _ h => absurd h.symm (by simp)
  | cons e run ih =>
      rw [eachStep_cons, ih]
      refine ⟨fun h before e' since hrun => ?_, fun h => ⟨h [] e run rfl, ?_⟩⟩
      · cases before with
        | nil =>
            obtain ⟨rfl, -⟩ := List.cons.inj hrun
            exact h.1
        | cons e₀ before =>
            obtain ⟨rfl, hrest⟩ := List.cons.inj hrun
            exact h.2 before e' since hrest
      · intro before e' since hrun
        exact h (e :: before) e' since (by rw [hrun]; rfl)

/-- An invariant kept by every step that meets the guard holds at the end of a
run whose steps all meet it. -/
theorem EachStep.invariant (h : EachStep step C s run)
    (hstep : ∀ s e, I s → C s e → I (step s e)) (hs : I s) :
    I (exec step s run) := by
  induction run generalizing s with
  | nil => exact hs
  | cons e run ih => exact ih h.2 (hstep s e hs h.1)

/-- Without a guard: an invariant kept by every step. -/
theorem exec_invariant (hstep : ∀ s e, I s → I (step s e)) (hs : I s)
    (run : List ε) : I (exec step s run) := by
  induction run generalizing s with
  | nil => exact hs
  | cons e run ih => exact ih (hstep s e hs)

/-- Under an invariant the guard keeps, what the guard gives at one step it
gives at every step. -/
theorem EachStep.imp (h : EachStep step C s run)
    (hstep : ∀ s e, I s → C s e → I (step s e))
    (himp : ∀ s e, I s → C s e → D s e) (hs : I s) : EachStep step D s run := by
  induction run generalizing s with
  | nil => trivial
  | cons e run ih => exact ⟨himp s e hs h.1, ih h.2 (hstep s e hs h.1)⟩

/-- What an invariant kept by every step gives at one step it gives at every step. -/
theorem EachStep.of_invariant (hstep : ∀ s e, I s → I (step s e))
    (himp : ∀ s e, I s → D s e) (hs : I s) : EachStep step D s run := by
  induction run generalizing s with
  | nil => trivial
  | cons e run ih => exact ⟨himp s e hs, ih (hstep s e hs)⟩

theorem EachStep.mono (h : EachStep step C s run) (himp : ∀ s e, C s e → D s e) :
    EachStep step D s run :=
  h.imp (I := fun _ => True) (fun _ _ _ _ => trivial) (fun s e _ => himp s e) trivial

/-- Where property and guard agree at each step taken from a state of the
invariant, and the guard keeps the invariant, they agree for whole runs. -/
theorem eachStep_congr (hstep : ∀ s e, I s → C s e → I (step s e))
    (hiff : ∀ s e, I s → (D s e ↔ C s e)) (hs : I s) :
    EachStep step D s run ↔ EachStep step C s run := by
  induction run generalizing s with
  | nil => exact Iff.rfl
  | cons e run ih =>
      simp only [eachStep_cons, hiff s e hs]
      exact and_congr_right fun he => ih (hstep s e hs he)

/-- A run whose steps all meet the guard stays good; the first step that does not turns
it bad for ever. So a property of the end that tells good from bad holds if and only if
all steps meet the guard. -/
theorem iff_eachStep {Good Bad : σ → Prop} {Q : Prop}
    (hgood : ∀ s e, Good s → C s e → Good (step s e))
    (hturn : ∀ s e, Good s → ¬ C s e → Bad (step s e))
    (hbad : ∀ s e, Bad s → Bad (step s e)) (hs : Good s)
    (hQ : Good (exec step s run) → Q) (hnot : Bad (exec step s run) → ¬ Q) :
    Q ↔ EachStep step C s run := by
  induction run generalizing s with
  | nil => exact iff_of_true (hQ hs) trivial
  | cons e run ih =>
      by_cases he : C s e
      · rw [eachStep_cons, and_iff_right he]
        exact ih (hgood s e hs he) hQ hnot
      · have hstays := exec_invariant hbad (hturn s e hs he) run
        exact iff_of_false (hnot hstays) fun h => he h.1

@[simp] theorem eachState_nil : EachState step P s [] ↔ P s := by
  refine ⟨?_, ?_⟩
  · intro h
    exact h [] [] rfl
  · rintro h pre post hrun
    obtain ⟨rfl, -⟩ := List.append_eq_nil_iff.mp hrun.symm
    exact h

@[simp] theorem eachState_cons {e : ε} :
    EachState step P s (e :: run) ↔ P s ∧ EachState step P (step s e) run := by
  refine ⟨?_, ?_⟩
  · intro h
    refine ⟨h [] _ rfl, fun pre post hrun => ?_⟩
    exact h (e :: pre) post (by rw [hrun]; rfl)
  · rintro ⟨hs, h⟩ pre post hrun
    cases pre with
    | nil => exact hs
    | cons e' pre =>
        obtain ⟨rfl, hrest⟩ := List.cons.inj hrun
        exact h pre post hrest

/-- A state property along a run is a step property: it holds first, and after
every step. -/
theorem eachState_iff_eachStep :
    EachState step P s run ↔ P s ∧ EachStep step (fun s e => P (step s e)) s run := by
  induction run generalizing s with
  | nil => simp
  | cons e run ih => simp [ih]

theorem EachStep.eachState (h : EachStep step C s run)
    (hstep : ∀ s e, I s → C s e → I (step s e)) (himp : ∀ s, I s → P s) (hs : I s) :
    EachState step P s run := by
  rintro pre post rfl
  exact himp _ ((eachStep_append.mp h).1.invariant hstep hs)

end NuedcFirmware.Lib
