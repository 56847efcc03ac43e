import Mathlib.Algebra.Group.ModEq
import Mathlib.Algebra.Order.Floor.Semiring
import Mathlib.Algebra.Order.ToIntervalMod
import Mathlib.Tactic.Abel
import Mathlib.Tactic.Linarith
import NuedcFirmware.Lib.CFloat
import NuedcFirmware.Lib.WhileLoop

/-!
Angles brought into one turn, and angles unwrapped again.

A loop that takes away whole turns as long as its condition holds, and its condition holds
for positive angles only, comes to an end: its potential is the angle, rounded up
(`not_cond_descend`, `descend_of_le`). So does a loop that adds them as long as the angle is
negative. Both stay on the angles that are the same modulo a turn.

An angle is unwrapped by going from its last value to the nearest one that is the same
modulo a turn (`unwrap`). It then follows every sequence of angles that moves by less than
half a turn at a time (`unwrap_eq`).
-/

namespace NuedcFirmware.Lib

section Loops

variable {K : Type*} [Field K] [LinearOrder K] [IsStrictOrderedRing K] [FloorRing K]

/-- The integer part and one more are as many rounds as an angle can need. -/
theorem abs_le_natAbs_truncate (x : K) : |x| ≤ ((truncate x).natAbs + 1 : ℕ) := by
  have htruncate : truncate x = if 0 ≤ x then ⌊x⌋ else ⌈x⌉ := rfl
  rw [Nat.cast_add_one, Nat.cast_natAbs, Int.cast_abs, htruncate]
  split_ifs with hx
  · rw [abs_of_nonneg hx]
    have hfloor := Int.lt_floor_add_one x
    have habs := le_abs_self (⌊x⌋ : K)
    linarith
  · rw [abs_of_neg (not_le.mp hx)]
    have hceil := Int.ceil_lt_add_one x
    have habs := neg_abs_le (⌈x⌉ : K)
    linarith

variable {turn : K} (hturn : 1 ≤ turn)
include hturn

/-- Less a turn, a positive number is smaller in whole steps. -/
theorem ceil_sub_turn_lt {x : K} (hx : 0 < x) : ⌈x - turn⌉₊ < ⌈x⌉₊ := by
  calc ⌈x - turn⌉₊ ≤ ⌈x - 1⌉₊ := Nat.ceil_mono (by linarith)
    _ = ⌈x⌉₊ - 1 := Nat.ceil_sub_one x
    _ < ⌈x⌉₊ := Nat.sub_lt (Nat.ceil_pos.mpr hx) Nat.one_pos

variable {cond : K → Prop} [DecidablePred cond] {x : K} {fuel fuel' : ℕ}

section Descend

variable (hcond : ∀ y, cond y → 0 < y)
include hcond

theorem not_cond_descend (hfuel : x ≤ fuel) : ¬ cond (whileLoop cond (· - turn) fuel x) :=
  not_cond_whileLoop (Φ := fun y : K => ⌈y⌉₊) (fun y hy => ceil_sub_turn_lt hturn (hcond y hy))
    (Nat.ceil_le.mpr hfuel)

theorem descend_of_le (hfuel : x ≤ fuel) (hle : fuel ≤ fuel') :
    whileLoop cond (· - turn) fuel' x = whileLoop cond (· - turn) fuel x :=
  whileLoop_of_le (Φ := fun y : K => ⌈y⌉₊) (fun y hy => ceil_sub_turn_lt hturn (hcond y hy))
    (Nat.ceil_le.mpr hfuel) hle

end Descend

section Ascend

variable (hcond : ∀ y, cond y → y < 0)
include hcond

omit [DecidablePred cond] in
theorem ceil_neg_add_turn_lt (y : K) (hy : cond y) : ⌈-(y + turn)⌉₊ < ⌈-y⌉₊ := by
  rw [neg_add']
  exact ceil_sub_turn_lt hturn (neg_pos.mpr (hcond y hy))

theorem not_cond_ascend (hfuel : -x ≤ fuel) : ¬ cond (whileLoop cond (· + turn) fuel x) :=
  not_cond_whileLoop (Φ := fun y : K => ⌈-y⌉₊) (ceil_neg_add_turn_lt hturn hcond)
    (Nat.ceil_le.mpr hfuel)

theorem ascend_of_le (hfuel : -x ≤ fuel) (hle : fuel ≤ fuel') :
    whileLoop cond (· + turn) fuel' x = whileLoop cond (· + turn) fuel x :=
  whileLoop_of_le (Φ := fun y : K => ⌈-y⌉₊) (ceil_neg_add_turn_lt hturn hcond)
    (Nat.ceil_le.mpr hfuel) hle

end Ascend

end Loops

/-! ### The same angle -/

section ModEq

variable {G : Type*} [AddCommGroup G] {turn : G} {cond : G → Prop} [DecidablePred cond]

theorem modEq_descend (fuel : ℕ) (x : G) :
    whileLoop cond (· - turn) fuel x ≡ x [PMOD turn] := by
  refine whileLoop_invariant (I := fun y => y ≡ x [PMOD turn]) (fun y hy _ => ?_)
    (AddCommGroup.modEq_refl x) fuel
  refine AddCommGroup.ModEq.trans ?_ hy
  rw [AddCommGroup.modEq_iff_eq_add_zsmul]
  exact ⟨1, by rw [one_zsmul, sub_add_cancel]⟩

theorem modEq_ascend (fuel : ℕ) (x : G) :
    whileLoop cond (· + turn) fuel x ≡ x [PMOD turn] := by
  refine whileLoop_invariant (I := fun y => y ≡ x [PMOD turn]) (fun y hy _ => ?_)
    (AddCommGroup.modEq_refl x) fuel
  refine AddCommGroup.ModEq.trans ?_ hy
  rw [AddCommGroup.modEq_iff_eq_add_zsmul]
  exact ⟨-1, by rw [neg_one_zsmul, add_neg_cancel_right]⟩

end ModEq

/-! ### Unwrapping -/

section Unwrap

variable {G : Type*} [AddCommGroup G] [LinearOrder G] [IsOrderedAddMonoid G] [Archimedean G]
  {turn : G} (hturn : 0 < turn) {half : G}

/-- The angle nearest to `previous` that is `wrapped` modulo a turn. It is looked for from
`-half` on, excluded, to `-half + turn`. -/
noncomputable def unwrap (half previous wrapped : G) : G :=
  previous + toIocMod hturn (-half) (wrapped - previous)

theorem modEq_unwrap (previous wrapped : G) :
    unwrap hturn half previous wrapped ≡ wrapped [PMOD turn] := by
  rw [unwrap, AddCommGroup.modEq_iff_zsmul]
  refine ⟨toIocDiv hturn (-half) (wrapped - previous), ?_⟩
  rw [toIocMod]
  abel

theorem unwrap_sub_mem (previous wrapped : G) :
    unwrap hturn half previous wrapped - previous ∈ Set.Ioc (-half) (-half + turn) := by
  rw [unwrap, add_sub_cancel_left]
  exact toIocMod_mem_Ioc ..

/-- There is no other angle as near. -/
theorem unwrap_eq {previous wrapped heading : G} (hmod : heading ≡ wrapped [PMOD turn])
    (hnear : heading - previous ∈ Set.Ioc (-half) (-half + turn)) :
    unwrap hturn half previous wrapped = heading := by
  obtain ⟨k, hk⟩ := AddCommGroup.modEq_iff_zsmul.mp hmod
  have hdelta : toIocMod hturn (-half) (wrapped - previous) = heading - previous := by
    refine (toIocMod_eq_iff hturn).mpr ⟨hnear, k, ?_⟩
    rw [hk]
    abel
  rw [unwrap, hdelta, add_sub_cancel]

end Unwrap

end NuedcFirmware.Lib
