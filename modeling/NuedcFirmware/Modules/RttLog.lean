import NuedcFirmware.Lib.RingBuffer
import NuedcFirmware.Lib.Run
import Mathlib.Data.UInt

/-!
The RTT log `rtt_log.c`: messages into a ring buffer in memory, which the debug host
empties.

A message is taken whole or not at all, and the host reads the accepted messages in
order, with no byte lost, doubled or overwritten (`fifo_run`).
-/

namespace NuedcFirmware.Modules

open NuedcFirmware.Lib

/-- `RTTBufferUp_t`. The last two offsets are what writer and host share. -/
structure RttBufferUp where
  buffer : ℕ → UInt8
  size : UInt32
  wrOff : UInt32
  rdOff : UInt32

/-- `_SEGGER_RTT.up[0]` as it is linked. -/
def seggerRttUp : RttBufferUp where
  buffer _ := 0
  size := 4096
  wrOff := 0
  rdOff := 0

/-- A string in memory. -/
structure CString where
  char : ℕ → UInt8
  terminated : ∃ n, char n = 0

def cstrLen (s : CString) : UInt32 := UInt32.ofNat (Nat.find s.terminated)

def spaceAvailable (buf : RttBufferUp) : UInt32 :=
  let wr := buf.wrOff
  let rd := buf.rdOff
  if rd > wr then rd - wr - 1 else buf.size - wr + rd - 1

/-- The `len` bytes from an address on. -/
def message (data : ℕ → UInt8) (len : UInt32) : List UInt8 := (List.range len.toNat).map data

/-- One round of the loop of `RTT_Log_Write`, on the cells and the local `wr`. -/
def copyByte (size : UInt32) (cursor : (ℕ → UInt8) × UInt32) (byte : UInt8) :
    (ℕ → UInt8) × UInt32 :=
  let wr := cursor.2 + 1
  (Function.update cursor.1 cursor.2.toNat byte, if wr ≥ size then 0 else wr)

def rttLogWrite (data : Option (ℕ → UInt8)) (len : UInt32) (buf : RttBufferUp) : RttBufferUp :=
  match data with
  | none => buf
  | some data =>
      if len = 0 then buf
      else if len ≥ buf.size then buf
      else if spaceAvailable buf < len then buf
      else
        let (buffer, wr) := (message data len).foldl (copyByte buf.size) (buf.buffer, buf.wrOff)
        { buf with buffer, wrOff := wr }

def rttLogWriteString (s : Option CString) (buf : RttBufferUp) : RttBufferUp :=
  match s with
  | none => buf
  | some s => rttLogWrite (some s.char) (cstrLen s) buf

namespace RttLog

/-! ### The ring -/

/-- The bytes from `rd_off` to `wr_off`. -/
def unread (buf : RttBufferUp) : List UInt8 :=
  RingBuffer.contents buf.buffer buf.size.toNat buf.rdOff.toNat
    (RingBuffer.dist buf.size.toNat buf.rdOff.toNat buf.wrOff.toNat)

structure WellFormed (buf : RttBufferUp) : Prop where
  wrOff_lt : buf.wrOff < buf.size
  rdOff_lt : buf.rdOff < buf.size

/-- The message is not empty, and its bytes and one more are free. -/
def Accepts (buf : RttBufferUp) (len : UInt32) : Prop :=
  0 < len.toNat ∧ len.toNat < buf.size.toNat ∧
    (unread buf).length + len.toNat + 1 ≤ buf.size.toNat

instance (buf : RttBufferUp) (len : UInt32) : Decidable (Accepts buf len) :=
  inferInstanceAs (Decidable (_ ∧ _ ∧ _))

/-- The buffer holds the queue, as a ring. -/
def Holds (buf : RttBufferUp) (queue : List UInt8) : Prop :=
  RingBuffer.Holds buf.buffer buf.size.toNat buf.rdOff.toNat buf.wrOff.toNat queue

@[simp] theorem length_message (data : ℕ → UInt8) (len : UInt32) :
    (message data len).length = len.toNat := by
  simp [message]

variable {buf : RttBufferUp} {queue : List UInt8}

theorem WellFormed.holds (h : WellFormed buf) : Holds buf (unread buf) :=
  RingBuffer.holds_contents (UInt32.lt_iff_toNat_lt.mp h.rdOff_lt)
    (UInt32.lt_iff_toNat_lt.mp h.wrOff_lt)

theorem Holds.unread_eq (h : Holds buf queue) : unread buf = queue := h.contents_dist

theorem Holds.wellFormed (h : Holds buf queue) : WellFormed buf :=
  ⟨UInt32.lt_iff_toNat_lt.mpr h.wr_lt, UInt32.lt_iff_toNat_lt.mpr h.rd_lt⟩

/-- No subtraction of `space_available` wraps, and one cell is always kept free. -/
theorem toNat_spaceAvailable (h : WellFormed buf) :
    (spaceAvailable buf).toNat = buf.size.toNat - 1 - (unread buf).length := by
  have hwr := UInt32.lt_iff_toNat_lt.mp h.wrOff_lt
  have hrd := UInt32.lt_iff_toNat_lt.mp h.rdOff_lt
  have hsize := buf.size.toNat_lt
  rw [unread, RingBuffer.length_contents, RingBuffer.dist, spaceAvailable]
  split_ifs with hgt hle hle
  all_goals
    rw [gt_iff_lt, UInt32.lt_iff_toNat_lt] at hgt
    simp only [UInt32.toNat_sub, UInt32.toNat_add, UInt32.toNat_one]
    omega

/-- The tests of `RTT_Log_Write`, in numbers. -/
theorem accepts_iff (h : WellFormed buf) (len : UInt32) :
    Accepts buf len ↔ len ≠ 0 ∧ ¬ len ≥ buf.size ∧ ¬ spaceAvailable buf < len := by
  have hfits : (unread buf).length < buf.size.toNat := h.holds.fits
  rw [Accepts, ne_eq, ← UInt32.toNat_inj, ge_iff_le, UInt32.le_iff_toNat_le,
    UInt32.lt_iff_toNat_lt, toNat_spaceAvailable h, UInt32.toNat_zero]
  omega

/-! ### The copy loop -/

theorem copyByte_eq_put {size wr : UInt32} (h : wr < size) (cells : ℕ → UInt8) (byte : UInt8) :
    (copyByte size (cells, wr) byte).1 = (RingBuffer.put size.toNat (cells, wr.toNat) byte).1 ∧
      (copyByte size (cells, wr) byte).2.toNat =
        (RingBuffer.put size.toNat (cells, wr.toNat) byte).2 ∧
      (copyByte size (cells, wr) byte).2 < size := by
  have hwr := UInt32.lt_iff_toNat_lt.mp h
  have hsize := size.toNat_lt
  have hnext : (wr + 1).toNat = wr.toNat + 1 := by
    rw [UInt32.toNat_add, UInt32.toNat_one]
    omega
  refine ⟨rfl, ?_⟩
  simp only [copyByte, RingBuffer.put, RingBuffer.next, ge_iff_le, UInt32.le_iff_toNat_le, hnext]
  split_ifs with hend
  · refine ⟨rfl, ?_⟩
    rw [UInt32.lt_iff_toNat_lt, UInt32.toNat_zero]
    omega
  · refine ⟨hnext, ?_⟩
    rw [UInt32.lt_iff_toNat_lt, hnext]
    omega

/-- The loop of `RTT_Log_Write` stores the message in the ring. -/
theorem foldl_copyByte {size wr : UInt32} (h : wr < size) (cells : ℕ → UInt8)
    (bytes : List UInt8) :
    (bytes.foldl (copyByte size) (cells, wr)).1 =
        (RingBuffer.store size.toNat cells wr.toNat bytes).1 ∧
      (bytes.foldl (copyByte size) (cells, wr)).2.toNat =
        (RingBuffer.store size.toNat cells wr.toNat bytes).2 := by
  induction bytes generalizing cells wr with
  | nil => exact ⟨rfl, rfl⟩
  | cons byte bytes ih =>
      obtain ⟨hcells, hwr, hlt⟩ := copyByte_eq_put h cells byte
      have hrest := ih hlt (copyByte size (cells, wr) byte).1
      rw [hwr] at hrest
      exact hrest

/-! ### One call -/

theorem rttLogWrite_of_not_accepts (h : WellFormed buf) {len : UInt32} (hlen : ¬ Accepts buf len)
    (data : ℕ → UInt8) : rttLogWrite (some data) len buf = buf := by
  rw [accepts_iff h] at hlen
  rw [rttLogWrite]
  split_ifs with hzero hlarge hfull
  · rfl
  · rfl
  · rfl
  · exact absurd ⟨hzero, hlarge, hfull⟩ hlen

/-- An accepted message is appended, and only `wr_off` moves. -/
theorem rttLogWrite_of_accepts (h : WellFormed buf) {len : UInt32} (hlen : Accepts buf len)
    (data : ℕ → UInt8) :
    Holds (rttLogWrite (some data) len buf) (unread buf ++ message data len) ∧
      (rttLogWrite (some data) len buf).size = buf.size ∧
      (rttLogWrite (some data) len buf).rdOff = buf.rdOff := by
  obtain ⟨hzero, hlarge, hfull⟩ := (accepts_iff h len).mp hlen
  have hstored := RingBuffer.Holds.store h.holds (message data len) (by
    rw [length_message]
    exact hlen.2.2)
  obtain ⟨hcells, hwr⟩ := foldl_copyByte h.wrOff_lt buf.buffer (message data len)
  rw [← hcells, ← hwr] at hstored
  rw [rttLogWrite, if_neg hzero, if_neg hlarge, if_neg hfull]
  exact ⟨hstored, rfl, rfl⟩

/-! ### Runs of calls and host reads -/

inductive Event
  | write (data : Option (ℕ → UInt8)) (len : UInt32)
  | writeString (s : Option CString)
  | read (count : ℕ)

/-- The message a call is given, if it is given one. -/
def Event.given : Event → Option ((ℕ → UInt8) × UInt32)
  | .write data len => data.map fun data => (data, len)
  | .writeString s => s.map fun s => (s.char, cstrLen s)
  | .read _ => none

/-- The host takes some of the unread bytes, and says so by moving `rd_off`. -/
def hostRead (count : ℕ) (buf : RttBufferUp) : RttBufferUp :=
  { buf with
    rdOff := UInt32.ofNat
      ((buf.rdOff.toNat + min count (unread buf).length) % buf.size.toNat) }

def perform (buf : RttBufferUp) : Event → RttBufferUp
  | .write data len => rttLogWrite data len buf
  | .writeString s => rttLogWriteString s buf
  | .read count => hostRead count buf

/-- The buffer, the bytes that the host has read, and the messages that were accepted. -/
structure Observed where
  buf : RttBufferUp
  read : List UInt8
  accepted : List (List UInt8)

def step (o : Observed) (e : Event) : Observed where
  buf := perform o.buf e
  read :=
    match e with
    | .read count => o.read ++ (unread o.buf).take count
    | _ => o.read
  accepted :=
    match e.given with
    | some (data, len) => if Accepts o.buf len then o.accepted ++ [message data len] else o.accepted
    | none => o.accepted

def start (cells : ℕ → UInt8) (size : UInt32) : Observed where
  buf := { buffer := cells, size, wrOff := 0, rdOff := 0 }
  read := []
  accepted := []

/-- The offsets are in the buffer, and what was read and what is unread are the accepted
messages in order. -/
structure Lossless (o : Observed) : Prop where
  wellFormed : WellFormed o.buf
  conserved : o.read ++ unread o.buf = o.accepted.flatten

/-- A message that fits is appended; otherwise nothing changes. -/
def Decided (o : Observed) (e : Event) : Prop :=
  match e with
  | .read _ => True
  | _ =>
      match e.given with
      | some (data, len) =>
          if Accepts o.buf len then
            unread (step o e).buf = unread o.buf ++ message data len
          else (step o e).buf = o.buf
      | none => (step o e).buf = o.buf

theorem hostRead_spec (h : WellFormed buf) (count : ℕ) :
    Holds (hostRead count buf) ((unread buf).drop count) := by
  have hrd := UInt32.lt_iff_toNat_lt.mp h.rdOff_lt
  have hsize := buf.size.toNat_lt
  have hmoved := RingBuffer.Holds.advance h.holds (c := min count (unread buf).length)
    (Nat.min_le_right _ _)
  have hoffset : (hostRead count buf).rdOff.toNat =
      (buf.rdOff.toNat + min count (unread buf).length) % buf.size.toNat := by
    have hlt := Nat.mod_lt (buf.rdOff.toNat + min count (unread buf).length)
      (Nat.zero_lt_of_lt hrd)
    rw [hostRead, UInt32.toNat_ofNat', Nat.mod_eq_of_lt (by omega)]
  have hdrop : (unread buf).drop (min count (unread buf).length) = (unread buf).drop count := by
    rw [← List.drop_eq_drop_min]
  rw [← hoffset, hdrop] at hmoved
  exact hmoved

/-- What a call does with the message it is given. -/
theorem perform_given {e : Event} {data : ℕ → UInt8} {len : UInt32}
    (h : e.given = some (data, len)) (buf : RttBufferUp) :
    perform buf e = rttLogWrite (some data) len buf := by
  cases e with
  | write data' len' =>
      obtain ⟨data', rfl, heq⟩ := Option.map_eq_some_iff.mp h
      cases heq
      rfl
  | writeString s =>
      obtain ⟨s, rfl, heq⟩ := Option.map_eq_some_iff.mp h
      cases heq
      rfl
  | read count => cases h

theorem lossless_of_given {o : Observed} {e : Event} (h : Lossless o) {data : ℕ → UInt8}
    {len : UInt32} (hgiven : e.given = some (data, len)) : Lossless (step o e) := by
  have hread : (step o e).read = o.read := by
    cases e with
    | read count => cases hgiven
    | _ => rfl
  have hbuf : (step o e).buf = rttLogWrite (some data) len o.buf := perform_given hgiven o.buf
  by_cases hlen : Accepts o.buf len
  · have haccepted : (step o e).accepted = o.accepted ++ [message data len] := by
      simp [step, hgiven, hlen]
    have hholds := (rttLogWrite_of_accepts h.wellFormed hlen data).1
    rw [← hbuf] at hholds
    refine ⟨hholds.wellFormed, ?_⟩
    rw [hread, hholds.unread_eq, haccepted, List.flatten_append, ← h.conserved]
    simp
  · have haccepted : (step o e).accepted = o.accepted := by simp [step, hgiven, hlen]
    rw [rttLogWrite_of_not_accepts h.wellFormed hlen] at hbuf
    refine ⟨?_, ?_⟩
    · rw [hbuf]
      exact h.wellFormed
    · rw [hread, hbuf, haccepted]
      exact h.conserved

theorem lossless_read {o : Observed} (h : Lossless o) (count : ℕ) :
    Lossless (step o (.read count)) := by
  have hholds := hostRead_spec h.wellFormed count
  refine ⟨hholds.wellFormed, ?_⟩
  show (o.read ++ (unread o.buf).take count) ++ unread (hostRead count o.buf) = _
  rw [hholds.unread_eq, List.append_assoc, List.take_append_drop]
  exact h.conserved

theorem lossless_step (o : Observed) (e : Event) (h : Lossless o) : Lossless (step o e) := by
  cases hgiven : e.given with
  | some call => exact lossless_of_given h hgiven
  | none =>
      cases e with
      | read count => exact lossless_read h count
      | write data len =>
          obtain rfl := Option.map_eq_none_iff.mp hgiven
          exact h
      | writeString s =>
          obtain rfl := Option.map_eq_none_iff.mp hgiven
          exact h

theorem decided_of_given {o : Observed} {e : Event} {data : ℕ → UInt8} {len : UInt32}
    (h : Lossless o) (hgiven : e.given = some (data, len)) :
    if Accepts o.buf len then unread (step o e).buf = unread o.buf ++ message data len
    else (step o e).buf = o.buf := by
  have hbuf : (step o e).buf = rttLogWrite (some data) len o.buf := perform_given hgiven o.buf
  rw [hbuf]
  split_ifs with hlen
  · exact (rttLogWrite_of_accepts h.wellFormed hlen data).1.unread_eq
  · exact rttLogWrite_of_not_accepts h.wellFormed hlen data

theorem decided_of_lossless (o : Observed) (e : Event) (h : Lossless o) : Decided o e := by
  cases e with
  | read count => trivial
  | write data len =>
      cases data with
      | none => exact rfl
      | some data => exact decided_of_given h rfl
  | writeString s =>
      cases s with
      | none => exact rfl
      | some s => exact decided_of_given h rfl

/-- Over every run of calls and host reads, for every size of the buffer: the offsets stay
in it, a message is appended whole if it fits and dropped if not, and what was read and
what is unread are the accepted messages in order. -/
theorem fifo_run (cells : ℕ → UInt8) {size : UInt32} (hsize : 2 ≤ size) (run : List Event) :
    EachState step Lossless (start cells size) run ∧
      EachStep step Decided (start cells size) run := by
  have hpos : 0 < size.toNat := by
    rw [UInt32.le_iff_toNat_le] at hsize
    exact Nat.lt_of_lt_of_le (by decide) hsize
  have hempty : Holds (start cells size).buf [] := RingBuffer.holds_nil hpos
  have hstart : Lossless (start cells size) := by
    refine ⟨hempty.wellFormed, ?_⟩
    rw [hempty.unread_eq]
    rfl
  refine ⟨?_, EachStep.of_invariant lossless_step decided_of_lossless hstart⟩
  rintro pre post rfl
  exact exec_invariant lossless_step hstart pre

/-- Around the end of a buffer of four bytes. -/
def wrapping : List Event :=
  [.write (some fun _ => 65) 3, .read 2, .write (some fun _ => 66) 2, .read 3]

theorem fifo_run_wrapping :
    EachState step Lossless (start seggerRttUp.buffer 4) wrapping ∧
      EachStep step Decided (start seggerRttUp.buffer 4) wrapping :=
  fifo_run seggerRttUp.buffer (by decide) wrapping

end RttLog

end NuedcFirmware.Modules
