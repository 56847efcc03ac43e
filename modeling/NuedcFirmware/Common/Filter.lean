import Mathlib.Algebra.Ring.Int.Defs
import Mathlib.Data.List.Infix
import NuedcFirmware.Lib.CFault
import NuedcFirmware.Lib.RingBuffer

/-!
The moving average of `filter.c`.

The buffer is a ring that overwrites its oldest sample, and the sum is kept up to date
beside it instead of being taken anew. `Tracks` says what both are after any number of
samples; a sample keeps it (`smaUpdate_eq`), as long as the window is not empty.
-/

namespace NuedcFirmware.Common

open NuedcFirmware.Lib

structure SMA where
  buf : Vector ℤ 16
  idx : UInt8
  len : UInt8
  sum : ℤ

def smaInit (len : UInt8) : SMA where
  buf := .replicate 16 0
  idx := 0
  len := if len > 16 then 16 else len
  sum := 0

def smaUpdate (s : SMA) (x : ℤ) : Except CFault (ℤ × SMA) := do
  let old ← readAt s.buf s.idx.toNat
  let sum ← int32 (s.sum - old)
  let buf ← writeAt s.buf s.idx.toNat x
  let sum ← int32 (sum + x)
  let idx ← modInt32 (s.idx.toNat + 1) s.len.toNat
  let average ← divInt32 sum s.len.toNat
  return (average, { s with buf, sum, idx := .ofInt idx })

/-- The results for a sequence of samples. -/
def smaResults : SMA → List ℤ → Except CFault (List ℤ)
  | _, [] => .ok []
  | s, x :: samples => do
      let (average, s) ← smaUpdate s x
      let averages ← smaResults s samples
      return average :: averages

/-! ### The window -/

/-- How many samples the average is taken over. -/
def windowLength (len : UInt8) : ℕ := min len.toNat 16

/-- The sums of the window, with its oldest sample and without it, stay in range. -/
def PartialSumsFit (k : ℕ) (samples : List ℤ) : Prop :=
  ∀ before ∈ samples.inits,
    IsInt32 (before.rtake (k - 1)).sum ∧ IsInt32 (before.rtake k).sum

instance (k : ℕ) (samples : List ℤ) : Decidable (PartialSumsFit k samples) :=
  List.decidableBAll _ _

/-- The average of the last `k` samples; what is missing counts as zero. -/
def windowAverage (k : ℕ) (samples : List ℤ) : ℤ := (samples.rtake k).sum.tdiv k

/-- Nothing goes wrong, and every result is the average of the window. -/
def Averages (len : UInt8) (samples : List ℤ) : Prop :=
  ∃ averages, smaResults (smaInit len) samples = .ok averages ∧
    averages.length = samples.length ∧
    ∀ n < samples.length,
      averages[n]? = some (windowAverage (windowLength len) (samples.take (n + 1)))

theorem toNat_len_smaInit (len : UInt8) : (smaInit len).len.toNat = windowLength len := by
  have hle : len > 16 ↔ 16 < len.toNat := UInt8.lt_iff_toNat_lt
  rw [windowLength]
  show (if len > 16 then 16 else len).toNat = _
  by_cases h : len > 16
  · rw [if_pos h, Nat.min_eq_right (hle.mp h).le]
    rfl
  · rw [if_neg h, Nat.min_eq_left (not_lt.mp (mt hle.mpr h))]

theorem windowLength_le (len : UInt8) : windowLength len ≤ 16 := Nat.min_le_right ..

theorem windowLength_pos {len : UInt8} (h : len ≠ 0) : 0 < windowLength len := by
  have hpos : len.toNat ≠ 0 := fun hzero => h (UInt8.toNat_inj.mp hzero)
  rw [windowLength]
  omega

/-! ### What the filter keeps -/

/-- The state after a sequence of samples, with a window of `k`. -/
structure Tracks (s : SMA) (k : ℕ) (samples : List ℤ) : Prop where
  len_eq : s.len.toNat = k
  le_size : k ≤ 16
  window : RingBuffer.HoldsLast (cellsOf 0 s.buf) k s.idx.toNat (List.replicate k 0 ++ samples)
  sum_eq : s.sum = (samples.rtake k).sum

theorem tracks_smaInit {len : UInt8} (h : len ≠ 0) :
    Tracks (smaInit len) (windowLength len) [] := by
  refine ⟨toNat_len_smaInit len, windowLength_le len, ?_, by rw [List.rtake_nil]; rfl⟩
  rw [List.append_nil]
  apply RingBuffer.holdsLast_replicate (windowLength_pos h)
  intro i hi
  rw [cellsOf_of_lt 0 _ (hi.trans_le (windowLength_le len))]
  exact Vector.getElem_replicate ..

variable {s : SMA} {k : ℕ} {samples : List ℤ}

/-- The state after one sample more. -/
def SMA.pushed (s : SMA) (x : ℤ) : SMA :=
  { s with
    buf := s.buf.setIfInBounds s.idx.toNat x
    idx := .ofInt (RingBuffer.next s.len.toNat s.idx.toNat)
    sum := s.sum - cellsOf 0 s.buf s.idx.toNat + x }

theorem smaUpdate_ok (hidx : s.idx.toNat < s.len.toNat) (hlen : s.len.toNat ≤ 16) {x : ℤ}
    (hold : IsInt32 (s.sum - cellsOf 0 s.buf s.idx.toNat)) (hnew : IsInt32 (s.pushed x).sum) :
    smaUpdate s x = .ok ((s.pushed x).sum.tdiv s.len.toNat, s.pushed x) := by
  have hsize : s.idx.toNat < 16 := hidx.trans_le hlen
  have hpos : (0 : ℤ) < s.len.toNat := by omega
  have hmod : modInt32 (s.idx.toNat + 1) s.len.toNat =
      .ok (RingBuffer.next s.len.toNat s.idx.toNat : ℕ) := by
    rw [RingBuffer.next_eq_mod hidx]
    refine modInt32_ok ?_ (by omega) hpos
    rw [IsInt32]
    omega
  have hsum : int32 (s.sum - cellsOf 0 s.buf s.idx.toNat + x) = .ok (s.pushed x).sum :=
    int32_ok hnew
  rw [smaUpdate, readAt_ok 0 _ hsize, ok_bind, int32_ok hold, ok_bind, writeAt_ok _ hsize,
    ok_bind, hsum, ok_bind, hmod, ok_bind, divInt32_ok hnew hpos, ok_bind]
  rfl

/-- Without the oldest sample of the window, the sum is that of the samples behind it. -/
theorem Tracks.sum_sub (h : Tracks s k samples) :
    s.sum - cellsOf 0 s.buf s.idx.toNat = (samples.rtake (k - 1)).sum := by
  have hcons := congrArg List.sum h.window.rtake_eq_cons
  rw [List.sum_cons, RingBuffer.sum_rtake_replicate_append,
    RingBuffer.sum_rtake_replicate_append] at hcons
  rw [h.sum_eq, hcons, add_sub_cancel_left]

theorem Tracks.sum_pushed (h : Tracks s k samples) (x : ℤ) :
    (s.pushed x).sum = ((samples ++ [x]).rtake k).sum := by
  have hwr := h.window.wr_lt
  obtain ⟨m, rfl⟩ : ∃ m, k = m + 1 := ⟨k - 1, by omega⟩
  show s.sum - cellsOf 0 s.buf s.idx.toNat + x = _
  rw [h.sum_sub, List.rtake_concat_succ, List.sum_append, List.sum_singleton,
    Nat.add_sub_cancel]

theorem Tracks.pushed (h : Tracks s k samples) (x : ℤ) :
    Tracks (s.pushed x) k (samples ++ [x]) := by
  have hput := h.window.put x
  have hnext : (s.pushed x).idx.toNat = RingBuffer.next k s.idx.toNat := by
    have hlt : RingBuffer.next k s.idx.toNat < k := hput.wr_lt
    have hle := h.le_size
    show (UInt8.ofInt (RingBuffer.next s.len.toNat s.idx.toNat : ℕ)).toNat = _
    rw [h.len_eq, UInt8.ofInt, Int.emod_eq_of_lt (by omega) (by omega), Int.toNat_natCast]
    exact UInt8.toNat_ofNat_of_lt' (show _ < 2 ^ 8 by omega)
  refine ⟨h.len_eq, h.le_size, ?_, h.sum_pushed x⟩
  rw [hnext, ← List.append_assoc]
  show RingBuffer.HoldsLast (cellsOf 0 (s.buf.setIfInBounds s.idx.toNat x)) _ _ _
  rw [cellsOf_setIfInBounds 0 _ (h.window.wr_lt.trans_le h.le_size)]
  exact hput

/-- One sample more. -/
theorem smaUpdate_eq (h : Tracks s k samples) (x : ℤ)
    (hold : IsInt32 (samples.rtake (k - 1)).sum)
    (hnew : IsInt32 ((samples ++ [x]).rtake k).sum) :
    smaUpdate s x = .ok (windowAverage k (samples ++ [x]), s.pushed x) := by
  rw [← h.sum_sub] at hold
  rw [← h.sum_pushed x] at hnew
  rw [smaUpdate_ok (h.len_eq ▸ h.window.wr_lt) (h.len_eq ▸ h.le_size) hold hnew, windowAverage,
    h.sum_pushed x, h.len_eq]

/-- Any number of samples more. -/
theorem smaResults_eq (h : Tracks s k samples) (later : List ℤ)
    (hfit : PartialSumsFit k (samples ++ later)) :
    ∃ averages, smaResults s later = .ok averages ∧ averages.length = later.length ∧
      ∀ n < later.length,
        averages[n]? = some (windowAverage k (samples ++ later.take (n + 1))) := by
  induction later generalizing s samples with
  | nil => exact ⟨[], rfl, rfl, fun n hn => absurd hn n.not_lt_zero⟩
  | cons x later ih =>
      have hassoc : samples ++ x :: later = samples ++ [x] ++ later := by simp
      rw [hassoc] at hfit
      have hupdate := smaUpdate_eq h x (hfit samples ((List.mem_inits ..).mpr ⟨x :: later, hassoc⟩)).1
        (hfit (samples ++ [x]) ((List.mem_inits ..).mpr ⟨later, rfl⟩)).2
      obtain ⟨averages, hresults, hlength, heach⟩ := ih (h.pushed x) hfit
      refine ⟨windowAverage k (samples ++ [x]) :: averages, ?_, ?_, ?_⟩
      · rw [smaResults, hupdate, ok_bind]
        dsimp only
        rw [hresults]
        rfl
      · rw [List.length_cons, List.length_cons, hlength]
      · intro n hn
        cases n with
        | zero => rfl
        | succ n =>
            rw [List.getElem?_cons_succ, heach n (Nat.lt_of_succ_lt_succ hn), List.take_succ_cons,
              List.append_assoc]
            rfl

/-- An empty window is let through, and the first sample is divided by its length. -/
theorem smaUpdate_len_zero {len : UInt8} (h : len = 0) {x : ℤ} (hx : IsInt32 x) :
    smaUpdate (smaInit len) x = .error .divisionByZero := by
  have hidx : (smaInit len).idx.toNat < 16 := Nat.zero_lt_succ _
  have hsum : (smaInit len).sum - cellsOf 0 (smaInit len).buf (smaInit len).idx.toNat = 0 := rfl
  have hzero : IsInt32 0 := by decide
  rw [smaUpdate, readAt_ok 0 _ hidx, ok_bind, hsum, int32_ok hzero, ok_bind,
    writeAt_ok _ hidx, ok_bind, zero_add, int32_ok hx, ok_bind, h]
  rfl

/-- The results are the averages of the window exactly if it is not empty, or nothing is
averaged. -/
theorem averages_iff {len : UInt8} {samples : List ℤ} (hint : ∀ x ∈ samples, IsInt32 x)
    (hfit : PartialSumsFit (windowLength len) samples) :
    Averages len samples ↔ len ≠ 0 ∨ samples = [] := by
  constructor
  · rintro ⟨averages, hresults, -⟩
    by_contra! hnot
    obtain ⟨hlen, hsamples⟩ := hnot
    obtain ⟨x, later, rfl⟩ := List.exists_cons_of_ne_nil hsamples
    rw [smaResults, smaUpdate_len_zero hlen (hint x List.mem_cons_self), error_bind] at hresults
    cases hresults
  · rintro (hlen | rfl)
    · exact smaResults_eq (tracks_smaInit hlen) samples hfit
    · exact ⟨[], rfl, rfl, fun n hn => absurd hn n.not_lt_zero⟩

/-- Five samples, which go around a window of three. -/
theorem averages_iff_three : Averages 3 [7, -2, 4, -10, 1] :=
  (averages_iff (by decide) (by decide)).mpr (Or.inl (by decide))

/-- The window that the initialiser lets through. -/
theorem not_averages_zero :
    PartialSumsFit (windowLength 0) [5] ∧
      smaResults (smaInit 0) [5] = .error .divisionByZero ∧ ¬ Averages 0 [5] := by
  have hresults : smaResults (smaInit 0) [5] = .error .divisionByZero := by
    rw [smaResults, smaUpdate_len_zero rfl (by decide), error_bind]
  refine ⟨by decide, hresults, ?_⟩
  rintro ⟨averages, haverages, -⟩
  rw [hresults] at haverages
  cases haverages

end NuedcFirmware.Common
