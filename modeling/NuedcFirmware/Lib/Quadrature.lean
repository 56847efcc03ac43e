import Mathlib.Algebra.Order.Ring.Int
import Mathlib.Tactic.Linarith

/-!
Quadrature decoding and metering in the abstract.

A shaft at integer position `p` shows the two-bit Gray code of `p`. A decoder
of code transitions is *exact on steps* when it returns the signed movement for
every movement by at most one position; then any composition of such movements
is counted exactly.

A `Meter` is what a position counter is for: it knows the position, the origin
set by the last reset, and the mark up to which the movement has been handed
out. The readings of a real counter are differences of these three numbers.
-/

namespace NuedcFirmware.Lib

/-- The two-bit Gray code of a position: 0, 1, 3, 2 and around again. -/
def gray (p : ℤ) : ℕ :=
  let n := (p % 4).toNat
  n ^^^ (n >>> 1)

/-- The decoder returns the movement itself for every movement by at most one
position. -/
def ExactOnSteps (decode : ℕ → ℕ → ℤ) : Prop :=
  ∀ p q : ℤ, |q - p| ≤ 1 → decode (gray p) (gray q) = q - p

theorem gray_add_four_mul (p k : ℤ) : gray (p + 4 * k) = gray p := by
  simp [gray, Int.add_mul_emod_self_left]

/-- A decoder is exact on steps as soon as it is on the four codes: forward,
backward and still. -/
theorem exactOnSteps_of_cycle {decode : ℕ → ℕ → ℤ}
    (h : ∀ r ∈ [0, 1, 2, 3], ∀ d ∈ [-1, 0, 1],
      decode (gray r) (gray (r + d)) = d) : ExactOnSteps decode := by
  intro p q hpq
  have hd : q - p = -1 ∨ q - p = 0 ∨ q - p = 1 := by
    rw [abs_le] at hpq
    omega
  have hr : p % 4 = 0 ∨ p % 4 = 1 ∨ p % 4 = 2 ∨ p % 4 = 3 := by omega
  have hp : p = p % 4 + 4 * (p / 4) := (Int.emod_add_mul_ediv p 4).symm
  have hgp : gray p = gray (p % 4) := by
    conv_lhs => rw [hp]
    exact gray_add_four_mul ..
  have hgq : gray q = gray (p % 4 + (q - p)) := by
    conv_lhs => rw [show q = p % 4 + (q - p) + 4 * (p / 4) by linarith]
    exact gray_add_four_mul ..
  rw [hgp, hgq]
  exact h _ (by simpa using hr) _ (by simpa using hd)

/-- The position, the origin set by the last reset and the mark up to which
movement has been handed out. -/
structure Meter where
  now : ℤ
  origin : ℤ
  mark : ℤ

namespace Meter

/-- A meter starting, or restarting, at `p`. -/
def reset (p : ℤ) : Meter := ⟨p, p, p⟩

def moveTo (m : Meter) (p : ℤ) : Meter := { m with now := p }

/-- Hand out the movement since the mark. -/
def take (m : Meter) : ℤ × Meter := (m.now - m.mark, { m with mark := m.now })

/-- The movement since the last reset. -/
def travelled (m : Meter) : ℤ := m.now - m.origin

/-- The movement not handed out yet. -/
def remainder (m : Meter) : ℤ := m.now - m.mark

/-- The movement handed out since the last reset. -/
def handedOut (m : Meter) : ℤ := m.mark - m.origin

theorem handedOut_add_remainder (m : Meter) : m.handedOut + m.remainder = m.travelled := by
  simp [handedOut, remainder, travelled]

@[simp] theorem now_reset (p : ℤ) : (reset p).now = p := rfl
@[simp] theorem now_moveTo (m : Meter) (p : ℤ) : (m.moveTo p).now = p := rfl
@[simp] theorem travelled_reset (p : ℤ) : (reset p).travelled = 0 := by simp [reset, travelled]
@[simp] theorem remainder_reset (p : ℤ) : (reset p).remainder = 0 := by simp [reset, remainder]
@[simp] theorem handedOut_reset (p : ℤ) : (reset p).handedOut = 0 := by simp [reset, handedOut]

theorem travelled_moveTo (m : Meter) (p : ℤ) :
    (m.moveTo p).travelled = m.travelled + (p - m.now) := by
  simp only [moveTo, travelled]; omega

theorem remainder_moveTo (m : Meter) (p : ℤ) :
    (m.moveTo p).remainder = m.remainder + (p - m.now) := by
  simp only [moveTo, remainder]; omega

@[simp] theorem handedOut_moveTo (m : Meter) (p : ℤ) :
    (m.moveTo p).handedOut = m.handedOut := rfl

@[simp] theorem travelled_take (m : Meter) : m.take.2.travelled = m.travelled := rfl
@[simp] theorem remainder_take (m : Meter) : m.take.2.remainder = 0 := by simp [take, remainder]

theorem handedOut_take (m : Meter) : m.take.2.handedOut = m.handedOut + m.remainder := by
  simp only [take, handedOut, remainder]; omega

end Meter

end NuedcFirmware.Lib
