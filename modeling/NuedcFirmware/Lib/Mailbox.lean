import Mathlib.Data.List.Basic

/-!
A mailbox that holds one value at a time: a producer posts, which overwrites, and
a consumer takes by clearing the mailbox and returning the copy it made before.

What an observer can say about the traffic is in the history of the mailbox.
`Accounted` says that no posted value is lost and `Faithful` that no value is
made up. A consumer that clears exactly what it has copied keeps both
(`Box.Good.take`); one that clears anything else loses it (`not_accounted_take`).
-/

namespace NuedcFirmware.Lib

variable {V : Type*}

inductive Traffic (V : Type*)
  | posted (v : V)
  | returned (v : V)

/-- A mailbox and the traffic it has seen, oldest first. -/
structure Box (V : Type*) where
  content : Option V
  history : List (Traffic V)

/-- Every posted value has been returned since, or is still in the mailbox, or
another value has been posted since. -/
def Accounted (b : Box V) : Prop :=
  ∀ before v after, b.history = before ++ .posted v :: after →
    .returned v ∈ after ∨ b.content = some v ∨ ∃ v', .posted v' ∈ after

/-- Every returned value was posted before. -/
def Faithful (b : Box V) : Prop :=
  ∀ before v after, b.history = before ++ .returned v :: after → .posted v ∈ before

namespace Box

def empty : Box V := ⟨none, []⟩

def post (b : Box V) (v : V) : Box V := ⟨some v, b.history ++ [.posted v]⟩

/-- The consumer clears the mailbox and returns its copy. -/
def take (b : Box V) (copy : Option V) : Box V :=
  ⟨none, b.history ++ (copy.map .returned).toList⟩

/-- The value in the mailbox is the last thing that happened to it. -/
def Latest (b : Box V) : Prop :=
  ∀ v, b.content = some v → ∃ before, b.history = before ++ [.posted v]

structure Good (b : Box V) : Prop where
  latest : b.Latest
  accounted : Accounted b
  faithful : Faithful b

end Box

variable {b : Box V}

/-- How a history that has grown by one entry can be cut at an entry. -/
theorem append_singleton_eq_append_cons {α : Type*} {l before after : List α} {x y : α}
    (h : l ++ [x] = before ++ y :: after) :
    (before = l ∧ y = x ∧ after = []) ∨
      ∃ after', after = after' ++ [x] ∧ l = before ++ y :: after' := by
  rcases List.eq_nil_or_concat after with rfl | ⟨after', z, rfl⟩
  · left
    obtain ⟨hl, hx⟩ := List.append_inj' h rfl
    exact ⟨hl.symm, (List.cons.inj hx).1.symm, rfl⟩
  · right
    have h' : l ++ [x] = (before ++ y :: after') ++ [z] := by simpa using h
    obtain ⟨hl, hx⟩ := List.append_inj' h' rfl
    obtain ⟨rfl, -⟩ := List.cons.inj hx
    exact ⟨after', by simp, hl⟩

theorem Box.good_empty : (Box.empty : Box V).Good where
  latest v h := by cases h
  accounted before v after h := by simp [Box.empty] at h
  faithful before v after h := by simp [Box.empty] at h

/-- Posting accounts for everything posted before it. -/
theorem Box.Good.post (h : b.Good) (v : V) : (b.post v).Good where
  latest v' h' := by
    obtain rfl : v = v' := by simpa [Box.post] using h'
    exact ⟨b.history, rfl⟩
  accounted before v' after hcut := by
    rcases append_singleton_eq_append_cons hcut with ⟨-, hv, -⟩ | ⟨after', rfl, -⟩
    · right; left
      rw [Box.post, (Traffic.posted.inj hv)]
    · right; right
      exact ⟨v, by simp⟩
  faithful before v' after hcut := by
    rcases append_singleton_eq_append_cons hcut with ⟨-, hv, -⟩ | ⟨after', -, hold⟩
    · cases hv
    · exact h.faithful before v' after' hold

/-- Taking exactly what is in the mailbox loses nothing and makes nothing up. -/
theorem Box.Good.take (h : b.Good) {copy : Option V} (hcopy : b.content = copy) :
    (b.take copy).Good where
  latest v hv := by cases hv
  accounted before v after hcut := by
    cases copy with
    | none =>
        have hold : b.history = before ++ .posted v :: after := by simpa [Box.take] using hcut
        rcases h.accounted before v after hold with hret | hpending | hlater
        · exact Or.inl hret
        · simp [hcopy] at hpending
        · exact Or.inr (Or.inr hlater)
    | some c =>
        rcases append_singleton_eq_append_cons hcut with ⟨-, hv, -⟩ | ⟨after', rfl, hold⟩
        · cases hv
        · rcases h.accounted before v after' hold with hret | hpending | ⟨v', hlater⟩
          · left; simp [hret]
          · -- the pending value is the one returned
            left
            rw [hcopy] at hpending
            simp [Option.some.inj hpending]
          · right; right
            exact ⟨v', by simp [hlater]⟩
  faithful before v after hcut := by
    cases copy with
    | none => exact h.faithful before v after (by simpa [Box.take] using hcut)
    | some c =>
        rcases append_singleton_eq_append_cons hcut with ⟨rfl, hv, -⟩ | ⟨after', -, hold⟩
        · obtain ⟨earlier, hlast⟩ := h.latest c hcopy
          rw [hlast, Traffic.returned.inj hv]
          simp
        · exact h.faithful before v after' hold

/-- Taking something else than what is in the mailbox loses that. -/
theorem not_accounted_take (h : b.Latest) {v : V} (hv : b.content = some v)
    {copy : Option V} (hcopy : b.content ≠ copy) : ¬ Accounted (b.take copy) := by
  intro hacc
  obtain ⟨before, hlast⟩ := h v hv
  have hcut : (b.take copy).history =
      before ++ .posted v :: (copy.map Traffic.returned).toList := by
    simp [Box.take, hlast]
  rcases hacc before v _ hcut with hret | hpending | ⟨v', hlater⟩
  · cases copy with
    | none => simp at hret
    | some c =>
        apply hcopy
        obtain rfl : v = c := by simpa using hret
        exact hv
  · simp [Box.take] at hpending
  · cases copy <;> simp at hlater

end NuedcFirmware.Lib
