import Mathlib.Data.List.Induction
import NuedcFirmware.Lib.Run

/-!
What has held since it began.

A state of a certain kind lasts for some steps of a run and ends again. Where the run is in
such a state, it has a last step at which the kind began, and every step since has been
taken in a state of the kind (`Since`). A variable that is set when the kind begins and kept
while it lasts remembers something about that step (`since_of_steps`).
-/

namespace NuedcFirmware.Lib

variable {σ ε ι : Type*} (step : σ → ε → σ) (began lasts : σ → ε → Prop)

/-- A step of the run began it, and every later one let it last. -/
def Since (s : σ) (run : List ε) : Prop :=
  ∃ before e since, run = before ++ e :: since ∧ began (exec step s before) e ∧
    EachStep step lasts (exec step s (before ++ [e])) since

variable {step began lasts} {s : σ} {run : List ε} {e : ε}

theorem since_of_began (h : began (exec step s run) e) :
    Since step began lasts s (run ++ [e]) :=
  ⟨run, e, [], rfl, h, trivial⟩

/-- One step more. -/
theorem Since.snoc (h : Since step began lasts s run) (hlasts : lasts (exec step s run) e) :
    Since step began lasts s (run ++ [e]) := by
  obtain ⟨before, e₀, since, rfl, hbegan, hsince⟩ := h
  refine ⟨before, e₀, since ++ [e], by simp, hbegan, ?_⟩
  rw [eachStep_append]
  refine ⟨hsince, ?_, trivial⟩
  rwa [← exec_append, List.append_assoc]

/-- Where a kind of state can only be kept or begin, with a value that is kept or set then,
a run that ends in the kind has been in it since it began, and that set the value it has. -/
theorem since_of_steps {P : σ → Prop} {value : σ → ι} {began : ι → σ → ε → Prop}
    (hstep : ∀ s e, P (step s e) →
      P s ∧ value (step s e) = value s ∨ began (value (step s e)) s e)
    (hs : ¬ P s) (run : List ε) (h : P (exec step s run)) :
    Since step (began (value (exec step s run))) (fun s _ => P s) s run := by
  induction run using List.reverseRecOn with
  | nil => exact absurd h hs
  | append_singleton run e ih =>
      rw [exec_append] at h ⊢
      rcases hstep _ e h with ⟨hP, hvalue⟩ | hbegan
      · have hbefore := ih hP
        rw [← hvalue] at hbefore
        exact hbefore.snoc hP
      · exact since_of_began hbegan

/-- The same under an invariant of the system. -/
theorem since_of_invariant {I P : σ → Prop} {value : σ → ι} {began : ι → σ → ε → Prop}
    (hinv : ∀ s e, I s → I (step s e))
    (hstep : ∀ s e, I s → P (step s e) →
      P s ∧ value (step s e) = value s ∨ began (value (step s e)) s e)
    (hI : I s) (hs : ¬ P s) (run : List ε) (h : P (exec step s run)) :
    Since step (began (value (exec step s run))) (fun s _ => P s) s run := by
  induction run using List.reverseRecOn with
  | nil => exact absurd h hs
  | append_singleton run e ih =>
      have hbefore := exec_invariant hinv hI run
      rw [exec_append] at h ⊢
      rcases hstep _ e hbefore h with ⟨hP, hvalue⟩ | hbegan
      · have hsince := ih hP
        rw [← hvalue] at hsince
        exact hsince.snoc hP
      · exact since_of_began hbegan

end NuedcFirmware.Lib
