import Mathlib.Data.Nat.Find
import Mathlib.Order.Basic
import Mathlib.Tactic.Push

/-!
Linear search: the first number of a range that has a property.

A loop that tries `lo`, `lo + 1`, … below `hi` and stops at the first success is
described by `FirstIn`, for what it counts as a success. Its passes are the lemmas
`firstIn_self`, `FirstIn.of_succ` and `NoneIn.of_succ`, and `firstIn_agree_iff`
compares a loop with one that has a stricter notion of success.
-/

namespace NuedcFirmware.Lib

variable {p q : ℕ → Prop} {lo hi k : ℕ}

/-- `k` is the first number from `lo` below `hi` with the property. -/
structure FirstIn (p : ℕ → Prop) (lo hi k : ℕ) : Prop where
  lo_le : lo ≤ k
  lt_hi : k < hi
  holds : p k
  before : ∀ j, lo ≤ j → j < k → ¬ p j

/-- No number from `lo` below `hi` has the property. -/
def NoneIn (p : ℕ → Prop) (lo hi : ℕ) : Prop := ∀ j, lo ≤ j → j < hi → ¬ p j

theorem noneIn_self (p : ℕ → Prop) (lo : ℕ) : NoneIn p lo lo :=
  fun _ hle hlt => absurd hlt (Nat.not_lt.mpr hle)

/-- The search succeeds at once. -/
theorem firstIn_self (hlt : lo < hi) (h : p lo) : FirstIn p lo hi lo where
  lo_le := le_refl lo
  lt_hi := hlt
  holds := h
  before _ hle hlt := absurd hlt (Nat.not_lt.mpr hle)

/-- The search fails at `lo`, and goes on. -/
theorem FirstIn.of_succ (h : FirstIn p (lo + 1) hi k) (hlo : ¬ p lo) : FirstIn p lo hi k where
  lo_le := Nat.le_of_succ_le h.lo_le
  lt_hi := h.lt_hi
  holds := h.holds
  before j hle hlt := by
    rcases Nat.eq_or_lt_of_le hle with rfl | hgt
    · exact hlo
    · exact h.before j hgt hlt

theorem NoneIn.of_succ (h : NoneIn p (lo + 1) hi) (hlo : ¬ p lo) : NoneIn p lo hi := by
  intro j hle hlt
  rcases Nat.eq_or_lt_of_le hle with rfl | hgt
  · exact hlo
  · exact h j hgt hlt

theorem FirstIn.unique {k' : ℕ} (h : FirstIn p lo hi k) (h' : FirstIn p lo hi k') : k = k' := by
  apply Nat.le_antisymm
  · by_contra hlt
    exact h.before k' h'.lo_le (Nat.not_le.mp hlt) h'.holds
  · by_contra hlt
    exact h'.before k h.lo_le (Nat.not_le.mp hlt) h.holds

theorem FirstIn.not_noneIn (h : FirstIn p lo hi k) : ¬ NoneIn p lo hi :=
  fun hnone => hnone k h.lo_le h.lt_hi h.holds

/-- Either nothing in the range has the property, or there is a first number with it. -/
theorem noneIn_or_exists_firstIn (p : ℕ → Prop) (lo hi : ℕ) :
    NoneIn p lo hi ∨ ∃ k, FirstIn p lo hi k := by
  classical
  by_cases hany : ∃ k, lo ≤ k ∧ k < hi ∧ p k
  · right
    obtain ⟨hle, hlt, hk⟩ := Nat.find_spec hany
    refine ⟨Nat.find hany, hle, hlt, hk, fun j hj hjlt hp => ?_⟩
    exact Nat.find_min hany hjlt ⟨hj, hjlt.trans hlt, hp⟩
  · left
    push Not at hany
    exact hany

/-- A search for `q` finds what a search for the stricter `p` would find, if and only
if every number that has only `q` comes behind one that has `p`. -/
theorem firstIn_agree_iff (hpq : ∀ k, p k → q k) :
    ((∀ k, FirstIn p lo hi k → FirstIn q lo hi k) ∧ (NoneIn p lo hi → NoneIn q lo hi)) ↔
      ∀ k, lo ≤ k → k < hi → q k → ¬ p k → ∃ j, lo ≤ j ∧ j < k ∧ p j := by
  refine ⟨?_, ?_⟩
  · rintro ⟨hfirst, hnone⟩ k hle hlt hq hp
    rcases noneIn_or_exists_firstIn p lo hi with hno | ⟨j, hj⟩
    · exact absurd hq (hnone hno k hle hlt)
    · -- the first `p` is the first `q`, so it is not behind `k`; and it is not `k`
      have hjk : j ≤ k := by
        by_contra hgt
        exact (hfirst j hj).before k hle (Nat.not_le.mp hgt) hq
      have hne : j ≠ k := by
        rintro rfl
        exact hp hj.holds
      exact ⟨j, hj.lo_le, Nat.lt_of_le_of_ne hjk hne, hj.holds⟩
  · intro hbehind
    refine ⟨?_, ?_⟩
    · intro k hk
      refine ⟨hk.lo_le, hk.lt_hi, hpq k hk.holds, fun j hle hlt hq => ?_⟩
      obtain ⟨i, hi, hij, hp⟩ := hbehind j hle (hlt.trans hk.lt_hi) hq (hk.before j hle hlt)
      exact hk.before i hi (hij.trans hlt) hp
    · intro hno k hle hlt hq
      obtain ⟨j, hj, hjk, hp⟩ := hbehind k hle hlt hq (hno k hle hlt)
      exact hno j hj (hjk.trans hlt) hp

end NuedcFirmware.Lib
