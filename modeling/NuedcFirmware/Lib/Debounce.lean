import Mathlib.Data.List.Induction
import Mathlib.Data.List.Infix
import NuedcFirmware.Lib.Run

/-!
Debouncing.

An input that bounces is sampled. A value is taken over when the last few samples have all
been of it, and is kept until that is so of another one (`Settled`). What computes this
remembers the last sample and how often it has been seen in a row, up to the number that it
takes. A system that has a debouncer in its state follows the samples that its run takes
(`follows_run`).
-/

namespace NuedcFirmware.Lib

variable {α : Type*} {limit : ℕ} {history : List α} {v w x : α}

/-! ### Settled values -/

/-- When the history last ended with `limit` equal samples, these were of `v`. -/
def Settled (limit : ℕ) (history : List α) (v : α) : Prop :=
  ∃ before after, history = before ++ after ∧ List.replicate limit v <:+ before ∧
    ∀ mid, mid <+: after → ∀ w, List.replicate limit w <:+ before ++ mid → w = v

theorem replicate_succ_suffix_concat {k : ℕ} :
    List.replicate (k + 1) v <:+ history ++ [x] ↔ v = x ∧ List.replicate k v <:+ history := by
  rw [List.replicate_succ', List.suffix_concat_iff]
  constructor
  · rintro (h | ⟨t, h, ht⟩)
    · simp at h
    · obtain ⟨rfl, hx⟩ := List.append_inj' h rfl
      exact ⟨List.singleton_inj.mp hx, ht⟩
  · rintro ⟨rfl, h⟩
    exact Or.inr ⟨_, rfl, h⟩

theorem eq_of_replicate_suffix_concat (hlimit : 0 < limit)
    (h : List.replicate limit v <:+ history ++ [x]) : v = x := by
  obtain ⟨k, rfl⟩ := Nat.exists_eq_add_of_lt hlimit
  rw [Nat.zero_add] at h
  exact (replicate_succ_suffix_concat.mp h).1

/-- One sample more. -/
theorem settled_concat (hlimit : 0 < limit) :
    Settled limit (history ++ [x]) v ↔
      List.replicate limit x <:+ history ++ [x] ∧ v = x ∨
        ¬List.replicate limit x <:+ history ++ [x] ∧ Settled limit history v := by
  constructor
  · rintro ⟨before, after, hsplit, hbefore, hafter⟩
    rcases List.eq_nil_or_concat after with rfl | ⟨after, y, rfl⟩
    · rw [List.append_nil] at hsplit
      obtain rfl := eq_of_replicate_suffix_concat hlimit (hsplit ▸ hbefore)
      exact Or.inl ⟨hsplit ▸ hbefore, rfl⟩
    · rw [List.concat_eq_append] at hsplit hafter
      have hlast : List.replicate limit x <:+ history ++ [x] → x = v := by
        intro h
        exact hafter _ (List.prefix_refl _) x (hsplit ▸ h)
      rw [← List.append_assoc] at hsplit
      obtain ⟨hhistory, -⟩ := List.append_inj' hsplit rfl
      by_cases hends : List.replicate limit x <:+ history ++ [x]
      · exact Or.inl ⟨hends, (hlast hends).symm⟩
      · refine Or.inr ⟨hends, before, after, hhistory, hbefore, fun mid hmid => ?_⟩
        exact hafter mid (hmid.trans (List.prefix_append _ _))
  · rintro (⟨hends, rfl⟩ | ⟨hends, before, after, rfl, hbefore, hafter⟩)
    · refine ⟨history ++ [v], [], (List.append_nil _).symm, hends, fun mid hmid w hw => ?_⟩
      rw [List.prefix_nil.mp hmid, List.append_nil] at hw
      exact eq_of_replicate_suffix_concat hlimit hw
    · refine ⟨before, after ++ [x], List.append_assoc .., hbefore, fun mid hmid w hw => ?_⟩
      rcases List.prefix_concat_iff.mp hmid with rfl | hmid
      · rw [← List.append_assoc] at hw
        obtain rfl := eq_of_replicate_suffix_concat hlimit hw
        exact absurd hw hends
      · exact hafter mid hmid w hw

theorem eq_of_replicate_suffix_replicate (hlimit : 0 < limit)
    (h : List.replicate limit w <:+ List.replicate limit v) : w = v := by
  have hsame := h.eq_of_length (by simp)
  have hmem : w ∈ List.replicate limit w := List.mem_replicate.mpr ⟨hlimit.ne', rfl⟩
  rw [hsame] at hmem
  exact (List.mem_replicate.mp hmem).2

theorem settled_replicate (hlimit : 0 < limit) :
    Settled limit (List.replicate limit v) w ↔ w = v := by
  constructor
  · rintro ⟨before, after, hsplit, hbefore, -⟩
    have hprefix : before <+: List.replicate limit v := ⟨after, hsplit.symm⟩
    have hle : limit ≤ before.length := by simpa using hbefore.length_le
    have hwhole : before = List.replicate limit v :=
      hprefix.eq_of_length_le (by simpa using hle)
    rw [hwhole] at hbefore
    exact eq_of_replicate_suffix_replicate hlimit hbefore
  · rintro rfl
    refine ⟨List.replicate limit w, [], (List.append_nil _).symm, List.suffix_refl _, ?_⟩
    intro mid hmid v hv
    rw [List.prefix_nil.mp hmid, List.append_nil] at hv
    exact eq_of_replicate_suffix_replicate hlimit hv

/-! ### The debouncer -/

/-- The last sample, how often it has been seen in a row, and the value taken over. -/
structure Debouncer (α : Type*) where
  candidate : α
  count : ℕ
  stable : α

variable [DecidableEq α]

def Debouncer.sample (limit : ℕ) (d : Debouncer α) (x : α) : Debouncer α :=
  let d :=
    if x ≠ d.candidate then { d with candidate := x, count := 1 }
    else if d.count < limit then { d with count := d.count + 1 }
    else d
  if limit ≤ d.count then { d with stable := d.candidate } else d

/-- One that has settled on `v`. -/
def Debouncer.settled (limit : ℕ) (v : α) : Debouncer α := ⟨v, limit, v⟩

/-- What it knows of the samples. -/
structure Debouncer.Follows (limit : ℕ) (d : Debouncer α) (history : List α) : Prop where
  pos : 0 < d.count
  le : d.count ≤ limit
  count : ∀ k ≤ limit, List.replicate k d.candidate <:+ history ↔ k ≤ d.count
  stable : ∀ v, Settled limit history v ↔ v = d.stable

omit [DecidableEq α] in
theorem Debouncer.follows_settled (hlimit : 0 < limit) (v : α) :
    (settled limit v).Follows limit (List.replicate limit v) where
  pos := hlimit
  le := Nat.le_refl limit
  count k hk := by
    refine iff_of_true ?_ hk
    obtain ⟨n, rfl⟩ := Nat.exists_eq_add_of_le hk
    refine ⟨List.replicate n v, ?_⟩
    rw [settled, List.replicate_append_replicate, Nat.add_comm]
  stable w := settled_replicate hlimit

/-- The sample is the candidate then, and this is how often it has been seen in a row. -/
theorem Debouncer.Follows.count_sample {d : Debouncer α} (h : d.Follows limit history) (x : α) :
    (d.sample limit x).candidate = x ∧ 0 < (d.sample limit x).count ∧
      (d.sample limit x).count ≤ limit ∧
      ∀ k ≤ limit, List.replicate k x <:+ history ++ [x] ↔ k ≤ (d.sample limit x).count := by
  have hlimit : 0 < limit := Nat.lt_of_lt_of_le h.pos h.le
  have hsnoc (k : ℕ) : List.replicate (k + 1) x <:+ history ++ [x] ↔
      List.replicate k x <:+ history := by
    rw [replicate_succ_suffix_concat, and_iff_right rfl]
  have hsample : (d.sample limit x).candidate = x ∧ (d.sample limit x).count =
      if x ≠ d.candidate then 1 else min (d.count + 1) limit := by
    have hle := h.le
    rw [sample]
    split_ifs <;> simp_all <;> omega
  obtain ⟨hcandidate, hcount⟩ := hsample
  refine ⟨hcandidate, ?_, ?_, fun k hk => ?_⟩
  · rw [hcount]
    split_ifs <;> omega
  · rw [hcount]
    split_ifs <;> omega
  · rw [hcount]
    cases k with
    | zero => simp
    | succ k =>
        rw [hsnoc]
        split_ifs with hnew
        · -- the row begins with this sample
          rw [Nat.succ_le_succ_iff, Nat.le_zero]
          refine ⟨fun hrow => ?_, ?_⟩
          · by_contra hk'
            obtain ⟨j, rfl⟩ := Nat.exists_eq_succ_of_ne_zero hk'
            obtain ⟨early, rfl⟩ := (h.count 1 (by omega)).mpr h.pos
            exact hnew (eq_of_replicate_suffix_concat (Nat.succ_pos j) hrow)
          · rintro rfl
            exact List.nil_suffix
        · obtain rfl := not_not.mp hnew
          rw [h.count k (by omega)]
          omega

theorem Debouncer.Follows.sample {d : Debouncer α} (h : d.Follows limit history) (x : α) :
    (d.sample limit x).Follows limit (history ++ [x]) := by
  obtain ⟨hcandidate, hpos, hle, hcount⟩ := h.count_sample x
  refine ⟨hpos, hle, by rwa [hcandidate], fun v => ?_⟩
  have hstable : (d.sample limit x).stable =
      if limit ≤ (d.sample limit x).count then (d.sample limit x).candidate else d.stable := by
    rw [Debouncer.sample]
    split_ifs <;> simp_all
  rw [hstable, hcandidate, settled_concat (Nat.lt_of_lt_of_le h.pos h.le),
    hcount limit (Nat.le_refl limit), h.stable]
  split_ifs with hfull <;> simp [hfull]

/-! ### In a system -/

section System

variable {σ ε : Type*} {step : σ → ε → σ} {reads : σ → ε → Option α}

variable (step reads) in
/-- The samples that the steps of a run take. -/
def samples : σ → List ε → List α
  | _, [] => []
  | s, e :: run => (reads s e).toList ++ samples (step s e) run

omit [DecidableEq α] in
@[simp] theorem samples_append (s : σ) (run run' : List ε) :
    samples step reads s (run ++ run') =
      samples step reads s run ++ samples step reads (exec step s run) run' := by
  induction run generalizing s with
  | nil => rfl
  | cons e run ih => simp [samples, ih]

/-- The debouncer of a system is given the samples, and nothing else changes it. -/
theorem follows_run (view : σ → Debouncer α)
    (hstep : ∀ s e, view (step s e) = (reads s e).elim (view s) ((view s).sample limit)) {s : σ}
    (hs : (view s).Follows limit history) (run : List ε) :
    (view (exec step s run)).Follows limit (history ++ samples step reads s run) := by
  induction run generalizing s history with
  | nil =>
      rw [exec_nil, samples, List.append_nil]
      exact hs
  | cons e run ih =>
      rw [exec_cons, samples, ← List.append_assoc]
      refine ih ?_
      rw [hstep]
      cases reads s e with
      | none =>
          rw [Option.toList_none, List.append_nil]
          exact hs
      | some x => exact hs.sample x

/-- What is newly taken over with a sample. -/
theorem Debouncer.Follows.stable_ne {d : Debouncer α} (h : d.Follows limit history) (x v : α) :
    (d.sample limit x).stable = v ∧ d.stable ≠ v ↔
      Settled limit (history ++ [x]) v ∧ ¬Settled limit history v := by
  rw [(h.sample x).stable, h.stable, eq_comm, ne_comm]

end System

end NuedcFirmware.Lib
