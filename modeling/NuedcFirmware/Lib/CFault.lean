import Mathlib.Algebra.Order.Group.Int

/-!
Operations that C does not define everywhere.

An operation of signed 32-bit integers whose exact result is none, a division by zero and an
access outside of an array end in a fault; elsewhere the operations are those of the integers.
-/

namespace NuedcFirmware.Lib

/-- What goes wrong. -/
inductive CFault
  | overflow
  | divisionByZero
  | indexOutOfBounds
  deriving DecidableEq, Repr

/-- The integers that an `int32_t` holds. -/
def IsInt32 (x : ℤ) : Prop := -2 ^ 31 ≤ x ∧ x < 2 ^ 31

instance (x : ℤ) : Decidable (IsInt32 x) := instDecidableAnd

/-- The exact result of an operation, as an `int32_t`. -/
def int32 (x : ℤ) : Except CFault ℤ :=
  if IsInt32 x then .ok x else .error .overflow

def divInt32 (a b : ℤ) : Except CFault ℤ :=
  if b = 0 then .error .divisionByZero else int32 (a.tdiv b)

def modInt32 (a b : ℤ) : Except CFault ℤ :=
  if b = 0 then .error .divisionByZero else int32 (a.tmod b)

section Array

variable {α : Type*} {n : ℕ}

def readAt (cells : Vector α n) (i : ℕ) : Except CFault α :=
  if h : i < n then .ok cells[i] else .error .indexOutOfBounds

def writeAt (cells : Vector α n) (i : ℕ) (a : α) : Except CFault (Vector α n) :=
  if i < n then .ok (cells.setIfInBounds i a) else .error .indexOutOfBounds

end Array

/-! ### Where nothing goes wrong -/

section Bind

variable {α β : Type} (f : α → Except CFault β)

@[simp] theorem ok_bind (a : α) : (Except.ok a >>= f) = f a := rfl

@[simp] theorem error_bind (fault : CFault) : (Except.error fault >>= f) = .error fault := rfl

end Bind

variable {a b : ℤ}

theorem int32_ok (h : IsInt32 a) : int32 a = .ok a := if_pos h

/-- A quotient is not longer than the dividend. -/
theorem divInt32_ok (ha : IsInt32 a) (hb : 0 < b) : divInt32 a b = .ok (a.tdiv b) := by
  have habs := Int.natAbs_tdiv_le_natAbs a b
  have hnonneg : 0 ≤ a → 0 ≤ a.tdiv b := fun h => Int.tdiv_nonneg h hb.le
  have hnonpos : a ≤ 0 → a.tdiv b ≤ 0 := fun h => by
    have hneg := Int.tdiv_nonneg (Int.neg_nonneg_of_nonpos h) hb.le
    rw [Int.neg_tdiv] at hneg
    exact Int.nonpos_of_neg_nonneg hneg
  rw [divInt32, if_neg hb.ne']
  apply int32_ok
  rw [IsInt32] at ha ⊢
  omega

/-- A remainder is not longer than the dividend either. -/
theorem modInt32_ok (ha : IsInt32 a) (ha₀ : 0 ≤ a) (hb : 0 < b) :
    modInt32 a b = .ok (a % b) := by
  have hle : a % b ≤ a := by
    have := Int.mul_nonneg hb.le (Int.ediv_nonneg ha₀ hb.le)
    have := Int.mul_ediv_add_emod a b
    omega
  have hnonneg := Int.emod_nonneg a hb.ne'
  rw [modInt32, if_neg hb.ne', Int.tmod_eq_emod_of_nonneg ha₀]
  apply int32_ok
  rw [IsInt32] at ha ⊢
  omega

section Array

variable {α : Type*} {n i : ℕ}

/-- The cells, with a value for the places outside of the array. -/
def cellsOf (pad : α) (cells : Vector α n) (i : ℕ) : α :=
  if h : i < n then cells[i] else pad

theorem readAt_ok (pad : α) (cells : Vector α n) (h : i < n) :
    readAt cells i = .ok (cellsOf pad cells i) := by
  rw [readAt, cellsOf, dif_pos h, dif_pos h]

theorem writeAt_ok (cells : Vector α n) (h : i < n) (x : α) :
    writeAt cells i x = .ok (cells.setIfInBounds i x) := if_pos h

theorem cellsOf_of_lt (pad : α) (cells : Vector α n) (h : i < n) :
    cellsOf pad cells i = cells[i] := dif_pos h

theorem cellsOf_setIfInBounds (pad : α) (cells : Vector α n) (h : i < n) (x : α) :
    cellsOf pad (cells.setIfInBounds i x) = Function.update (cellsOf pad cells) i x := by
  funext j
  by_cases hj : j = i
  · subst hj
    rw [Function.update_self, cellsOf_of_lt pad _ h, Vector.getElem_setIfInBounds_self]
  · rw [Function.update_of_ne hj, cellsOf, cellsOf]
    split_ifs with hlt
    · rw [Vector.getElem_setIfInBounds_ne _ (Ne.symm hj)]
    · rfl

end Array

end NuedcFirmware.Lib
