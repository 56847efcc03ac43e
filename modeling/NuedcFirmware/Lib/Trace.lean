import NuedcFirmware.Lib.Run

/-!
What a run shows.

A deterministic system with a visible part: `trace` is what its states show after each of
the events of a run. Two states are told apart by a run with different traces. A relation
that every event keeps, and that makes the states after an event look the same, relates
only states that no run tells apart (`trace_eq_of_keeps`). Where the events of two runs
are related as well, so are their traces (`forall₂_trace`).
-/

namespace NuedcFirmware.Lib

variable {σ ε ο : Type*} (step : σ → ε → σ) (out : σ → ο)

/-- What is seen after each event of the run. -/
def trace : σ → List ε → List ο
  | _, [] => []
  | s, e :: run => out (step s e) :: trace (step s e) run

@[simp] theorem trace_nil (s : σ) : trace step out s [] = [] := rfl

@[simp] theorem trace_cons (s : σ) (e : ε) (run : List ε) :
    trace step out s (e :: run) = out (step s e) :: trace step out (step s e) run := rfl

variable {step out}

/-- Two runs of related events, from related states, show related things. -/
theorem forall₂_trace {R : σ → σ → Prop} {E : ε → ε → Prop} {O : ο → ο → Prop}
    (hstep : ∀ s s' e e', R s s' → E e e' → R (step s e) (step s' e'))
    (hout : ∀ s s' e e', R s s' → E e e' → O (out (step s e)) (out (step s' e')))
    {s s' : σ} (h : R s s') {run run' : List ε} (hrun : List.Forall₂ E run run') :
    List.Forall₂ O (trace step out s run) (trace step out s' run') := by
  induction hrun generalizing s s' with
  | nil => exact List.Forall₂.nil
  | cons he _ ih =>
      exact List.Forall₂.cons (hout s s' _ _ h he) (ih (hstep s s' _ _ h he))

theorem trace_eq_of_keeps {R : σ → σ → Prop} (hstep : ∀ s s' e, R s s' → R (step s e) (step s' e))
    (hout : ∀ s s' e, R s s' → out (step s e) = out (step s' e)) {s s' : σ} (h : R s s')
    (run : List ε) : trace step out s run = trace step out s' run := by
  induction run generalizing s s' with
  | nil => rfl
  | cons e run ih => rw [trace_cons, trace_cons, hout s s' e h, ih (hstep s s' e h)]

end NuedcFirmware.Lib
