import Mathlib.Data.Nat.Basic

/-!
A `while` loop, for at most a given number of rounds.

Two rules. An invariant kept by the body where the condition holds is kept by the loop
(`whileLoop_invariant`). A potential that every round lowers bounds the number of rounds:
from then on the condition fails, and more rounds change nothing
(`not_cond_whileLoop`, `whileLoop_of_le`).
-/

namespace NuedcFirmware.Lib

variable {σ : Type*} (cond : σ → Prop) [DecidablePred cond] (body : σ → σ)

def whileLoop : ℕ → σ → σ
  | 0, s => s
  | fuel + 1, s => if cond s then whileLoop fuel (body s) else s

variable {cond body}

theorem whileLoop_of_not {s : σ} (h : ¬ cond s) (fuel : ℕ) : whileLoop cond body fuel s = s := by
  cases fuel with
  | zero => rfl
  | succ fuel => rw [whileLoop, if_neg h]

theorem whileLoop_invariant {I : σ → Prop} (hbody : ∀ s, I s → cond s → I (body s)) {s : σ}
    (hs : I s) (fuel : ℕ) : I (whileLoop cond body fuel s) := by
  induction fuel generalizing s with
  | zero => exact hs
  | succ fuel ih =>
      rw [whileLoop]
      split_ifs with h
      · exact ih (hbody s hs h)
      · exact hs

section Potential

variable {Φ : σ → ℕ} (hΦ : ∀ s, cond s → Φ (body s) < Φ s) {s : σ}
include hΦ

theorem not_cond_whileLoop {fuel : ℕ} (h : Φ s ≤ fuel) : ¬ cond (whileLoop cond body fuel s) := by
  induction fuel generalizing s with
  | zero =>
      intro hcond
      have hlt := hΦ s hcond
      omega
  | succ fuel ih =>
      rw [whileLoop]
      split_ifs with hcond
      · have hlt := hΦ s hcond
        exact ih (by omega)
      · exact hcond

theorem whileLoop_of_le {fuel fuel' : ℕ} (h : Φ s ≤ fuel) (hle : fuel ≤ fuel') :
    whileLoop cond body fuel' s = whileLoop cond body fuel s := by
  induction fuel generalizing s fuel' with
  | zero =>
      refine whileLoop_of_not (fun hcond => ?_) fuel'
      have hlt := hΦ s hcond
      omega
  | succ fuel ih =>
      obtain ⟨rest, rfl⟩ := Nat.exists_eq_add_of_le hle
      rw [show fuel + 1 + rest = (fuel + rest) + 1 by omega, whileLoop, whileLoop]
      split_ifs with hcond
      · have hlt := hΦ s hcond
        exact ih (by omega) (by omega)
      · rfl

end Potential

end NuedcFirmware.Lib
