import Mathlib.Algebra.BigOperators.Group.List.Basic
import Mathlib.Data.List.DropRight
import Mathlib.Logic.Function.Basic

/-!
Ring buffers: a queue in `n` cells, between two offsets that go around.

The queue starts at the read offset and ends before the write offset, and one cell at
least stays free, so that equal offsets mean an empty queue. `Holds` says which queue a
buffer holds; storing at the write offset appends to it, and advancing the read offset
drops from it.

A ring without a reader overwrites its oldest cell instead, which is the one at the write
offset. `HoldsLast` says that its cells are the last elements that were put.
-/

namespace NuedcFirmware.Lib.RingBuffer

variable {α : Type*}

/-- How far it is from one offset up to another one, around the ring. -/
def dist (n rd wr : ℕ) : ℕ := if rd ≤ wr then wr - rd else n - rd + wr

/-- The offset behind another one. -/
def next (n i : ℕ) : ℕ := if i + 1 ≥ n then 0 else i + 1

/-- The first `k` cells from an offset on. -/
def contents (cells : ℕ → α) (n rd k : ℕ) : List α :=
  (List.range k).map fun i => cells ((rd + i) % n)

/-- Store one element and go on. -/
def put (n : ℕ) (cursor : (ℕ → α) × ℕ) (a : α) : (ℕ → α) × ℕ :=
  (Function.update cursor.1 cursor.2 a, next n cursor.2)

/-- Store a list from an offset on. -/
def store (n : ℕ) (cells : ℕ → α) (wr : ℕ) (l : List α) : (ℕ → α) × ℕ :=
  l.foldl (put n) (cells, wr)

variable {n rd wr k : ℕ} {cells : ℕ → α} {queue : List α}

theorem next_eq_mod {i : ℕ} (h : i < n) : next n i = (i + 1) % n := by
  rw [next]
  split_ifs with hend
  · have hlast : i + 1 = n := by omega
    rw [hlast, Nat.mod_self]
  · rw [Nat.mod_eq_of_lt (by omega)]

theorem dist_lt (hrd : rd < n) (hwr : wr < n) : dist n rd wr < n := by
  rw [dist]
  split_ifs <;> omega

theorem dist_add_mod (hrd : rd < n) (hk : k < n) : dist n rd ((rd + k) % n) = k := by
  rw [dist, Nat.add_mod_eq_ite, Nat.mod_eq_of_lt hrd, Nat.mod_eq_of_lt hk]
  split_ifs <;> omega

theorem add_dist_mod (hrd : rd < n) (hwr : wr < n) : (rd + dist n rd wr) % n = wr := by
  rw [dist]
  split_ifs with h
  · rw [Nat.add_sub_cancel' h, Nat.mod_eq_of_lt hwr]
  · have hround : rd + (n - rd + wr) = wr + n := by omega
    rw [hround, Nat.add_mod_right, Nat.mod_eq_of_lt hwr]

theorem dist_next (hrd : rd < n) (hwr : wr < n) :
    dist n rd (next n wr) = (dist n rd wr + 1) % n := by
  have hlt : (dist n rd wr + 1) % n < n := Nat.mod_lt _ (Nat.zero_lt_of_lt hrd)
  rw [← dist_add_mod hrd hlt, Nat.add_mod_mod, ← Nat.add_assoc, ← Nat.mod_add_mod,
    add_dist_mod hrd hwr, next_eq_mod hwr]

/-! ### Contents -/

@[simp] theorem length_contents : (contents cells n rd k).length = k := by
  simp [contents]

theorem contents_succ :
    contents cells n rd (k + 1) = contents cells n rd k ++ [cells ((rd + k) % n)] := by
  rw [contents, List.range_succ, List.map_append]
  rfl

/-- A cell outside the queue may change. -/
theorem contents_update {i : ℕ} (a : α) (h : ∀ j < k, (rd + j) % n ≠ i) :
    contents (Function.update cells i a) n rd k = contents cells n rd k := by
  refine List.map_congr_left fun j hj => ?_
  rw [Function.update_of_ne (h j (List.mem_range.mp hj))]

theorem drop_contents {c : ℕ} :
    (contents cells n rd k).drop c = contents cells n ((rd + c) % n) (k - c) := by
  refine List.ext_getElem (by simp) fun i _ _ => ?_
  simp [contents, Nat.add_assoc]

/-! ### The queue a buffer holds -/

/-- The cells between the offsets hold the queue, and one cell stays free. -/
structure Holds (cells : ℕ → α) (n rd wr : ℕ) (queue : List α) : Prop where
  rd_lt : rd < n
  fits : queue.length < n
  wr_eq : wr = (rd + queue.length) % n
  queue_eq : contents cells n rd queue.length = queue

theorem Holds.wr_lt (h : Holds cells n rd wr queue) : wr < n := by
  rw [h.wr_eq]
  exact Nat.mod_lt _ (Nat.zero_lt_of_lt h.rd_lt)

theorem Holds.dist_eq (h : Holds cells n rd wr queue) : dist n rd wr = queue.length := by
  rw [h.wr_eq]
  exact dist_add_mod h.rd_lt h.fits

/-- Which queue it is can be read off the buffer. -/
theorem Holds.contents_dist (h : Holds cells n rd wr queue) :
    contents cells n rd (dist n rd wr) = queue := by
  rw [h.dist_eq, h.queue_eq]

theorem holds_contents (hrd : rd < n) (hwr : wr < n) :
    Holds cells n rd wr (contents cells n rd (dist n rd wr)) := by
  refine ⟨hrd, ?_, ?_, ?_⟩
  · rw [length_contents]
    exact dist_lt hrd hwr
  · rw [length_contents, add_dist_mod hrd hwr]
  · rw [length_contents]

/-- One element is appended, where it leaves a cell free. -/
theorem Holds.put (h : Holds cells n rd wr queue) (a : α) (hfits : queue.length + 1 < n) :
    Holds (put n (cells, wr) a).1 n rd (put n (cells, wr) a).2 (queue ++ [a]) := by
  have hother : ∀ j < queue.length, (rd + j) % n ≠ wr := by
    intro j hj
    rw [h.wr_eq]
    intro heq
    -- two offsets less than a round apart
    have hj' := dist_add_mod h.rd_lt (k := j) (by omega)
    rw [heq, dist_add_mod h.rd_lt h.fits] at hj'
    omega
  refine ⟨h.rd_lt, ?_, ?_, ?_⟩
  · simpa using hfits
  · have hwr := h.wr_lt
    show next n wr = _
    rw [next_eq_mod hwr, h.wr_eq, Nat.mod_add_mod, List.length_append, Nat.add_assoc]
    rfl
  · rw [List.length_append]
    show contents (Function.update cells wr a) n rd (queue.length + 1) = _
    rw [contents_succ, contents_update a hother, h.queue_eq, ← h.wr_eq, Function.update_self]

theorem Holds.store (h : Holds cells n rd wr queue) (l : List α)
    (hfits : queue.length + l.length < n) :
    Holds (store n cells wr l).1 n rd (store n cells wr l).2 (queue ++ l) := by
  induction l generalizing cells wr queue with
  | nil => simpa [store] using h
  | cons a l ih =>
      have hput := h.put a (by simp at hfits; omega)
      have hrest := ih hput (by simp at hfits ⊢; omega)
      rwa [List.append_assoc] at hrest

/-- The reader takes from the front. -/
theorem Holds.advance (h : Holds cells n rd wr queue) {c : ℕ} (hc : c ≤ queue.length) :
    Holds cells n ((rd + c) % n) wr (queue.drop c) := by
  have hlength : (queue.drop c).length = queue.length - c := List.length_drop
  refine ⟨Nat.mod_lt _ (Nat.zero_lt_of_lt h.rd_lt), ?_, ?_, ?_⟩
  · have := h.fits
    omega
  · rw [hlength, Nat.mod_add_mod, Nat.add_assoc, Nat.add_sub_cancel' hc]
    exact h.wr_eq
  · rw [hlength, ← drop_contents, h.queue_eq]

theorem holds_nil (hrd : rd < n) : Holds cells n rd rd [] :=
  ⟨hrd, Nat.zero_lt_of_lt hrd, (Nat.mod_eq_of_lt hrd).symm, rfl⟩

/-! ### A ring that overwrites -/

theorem contents_succ_eq_cons (hrd : rd < n) :
    contents cells n rd (k + 1) = cells rd :: contents cells n (next n rd) k := by
  have htail : contents cells n (next n rd) k = (contents cells n rd (k + 1)).drop 1 := by
    rw [drop_contents, Nat.add_sub_cancel, next_eq_mod hrd]
  rw [htail, contents, List.range_succ_eq_map]
  simp [Nat.mod_eq_of_lt hrd]

/-- From the write offset on and once around, the cells are the last elements put. -/
structure HoldsLast (cells : ℕ → α) (n wr : ℕ) (put : List α) : Prop where
  wr_lt : wr < n
  le_length : n ≤ put.length
  contents_eq : contents cells n wr n = put.rtake n

theorem holdsLast_replicate {a : α} (hn : 0 < n) (hcells : ∀ i < n, cells i = a) :
    HoldsLast cells n 0 (List.replicate n a) := by
  refine ⟨hn, (List.length_replicate ..).ge, ?_⟩
  rw [List.rtake, List.length_replicate, Nat.sub_self, List.drop_zero]
  refine List.eq_replicate_iff.mpr ⟨length_contents, fun b hb => ?_⟩
  obtain ⟨i, -, rfl⟩ := List.mem_map.mp hb
  exact hcells _ (Nat.mod_lt _ hn)

/-- The cell at the write offset holds the oldest of them. -/
theorem HoldsLast.rtake_eq_cons {put : List α} (h : HoldsLast cells n wr put) :
    put.rtake n = cells wr :: put.rtake (n - 1) := by
  obtain ⟨m, rfl⟩ : ∃ m, n = m + 1 := ⟨n - 1, by have := h.wr_lt; omega⟩
  have hle := h.le_length
  have hcons : put.rtake (m + 1) = cells wr :: contents cells (m + 1) (next (m + 1) wr) m := by
    rw [← h.contents_eq, contents_succ_eq_cons h.wr_lt]
  have htail : put.rtake m = (put.rtake (m + 1)).drop 1 := by
    rw [List.rtake, List.rtake, List.drop_drop]
    congr 1
    omega
  rw [Nat.add_sub_cancel, htail, hcons]
  rfl

/-- One element more, in the place of the oldest. -/
theorem HoldsLast.put {pushed : List α} (h : HoldsLast cells n wr pushed) (a : α) :
    HoldsLast (put n (cells, wr) a).1 n (put n (cells, wr) a).2 (pushed ++ [a]) := by
  obtain ⟨m, rfl⟩ : ∃ m, n = m + 1 := ⟨n - 1, by have := h.wr_lt; omega⟩
  have hwr := h.wr_lt
  have hnext : next (m + 1) wr < m + 1 := by
    rw [next]
    split_ifs <;> omega
  -- the write offset is the last one of the round that begins behind it
  have hround : (next (m + 1) wr + m) % (m + 1) = wr := by
    rw [next_eq_mod hwr, Nat.mod_add_mod, Nat.add_assoc, Nat.add_comm 1 m,
      Nat.add_mod_right, Nat.mod_eq_of_lt hwr]
  have hother : ∀ j < m, (next (m + 1) wr + j) % (m + 1) ≠ wr := by
    intro j hj heq
    have hj' := dist_add_mod hnext (k := j) (by omega)
    have hm := dist_add_mod hnext (Nat.lt_succ_self m)
    rw [heq] at hj'
    rw [hround, hj'] at hm
    omega
  have htail : contents cells (m + 1) (next (m + 1) wr) m = pushed.rtake m := by
    have hcons := h.rtake_eq_cons
    rw [← h.contents_eq, contents_succ_eq_cons hwr] at hcons
    exact (List.cons.inj hcons).2
  refine ⟨hnext, ?_, ?_⟩
  · rw [List.length_append]
    exact Nat.le_add_right_of_le h.le_length
  · show contents (Function.update cells wr a) (m + 1) (next (m + 1) wr) (m + 1) = _
    rw [contents_succ, contents_update a hother, hround, Function.update_self, htail,
      List.rtake_concat_succ]

/-- Zeros in front do not count in a sum of last elements. -/
theorem sum_rtake_replicate_append [AddMonoid α] (m k : ℕ) (l : List α) :
    ((List.replicate m 0 ++ l).rtake k).sum = (l.rtake k).sum := by
  rw [List.rtake, List.rtake, List.drop_append, List.sum_append, List.drop_replicate,
    List.sum_replicate, nsmul_zero, zero_add, List.length_append, List.length_replicate]
  congr 2
  omega

end NuedcFirmware.Lib.RingBuffer
