import NuedcFirmware.Lib.Bytes
import NuedcFirmware.Modules.InvImuTransport

/-!
What goes over the bus in an access to a register of the sensor.

A transport is traced where its state keeps a log of the transfers, failed ones too. An access
to a register behind `IREG_DATA` is the address and then one transfer for every byte; nothing
is sent where it would touch a register that stalls the device (`readReg_indirect`,
`writeReg_indirect`).
-/

namespace NuedcFirmware.Modules

open NuedcFirmware.Lib

/-- A transfer over the bus: the register, the bytes and whether it succeeded. -/
inductive Transfer
  | read (reg : UInt8) (bytes : List UInt8) (ok : Bool)
  | write (reg : UInt8) (bytes : List UInt8) (ok : Bool)
  deriving DecidableEq, Repr

def Transfer.ok : Transfer → Bool
  | read _ _ ok | write _ _ ok => ok

/-- The first `len` bytes of a buffer. -/
def bufferBytes (buf : ℕ → UInt8) (len : UInt32) : List UInt8 := (List.range len.toNat).map buf

/-- A transport whose state keeps the transfers made. -/
structure TracedTransport (σ : Type) extends InvImuTransport σ where
  log : σ → List Transfer
  log_readReg : ∀ reg buf len s, Yields (readReg reg buf len) s fun r s' =>
    log s' = log s ++ [.read reg (bufferBytes r.1 len) (r.2 = 0)]
  log_writeReg : ∀ reg buf len s, Yields (writeReg reg buf len) s fun status s' =>
    log s' = log s ++ [.write reg (bufferBytes buf len) (status = 0)]
  log_sleepUs : ∀ us s, Yields (sleepUs us) s fun _ s' => log s' = log s

/-- A bus that answers every transfer, a reading by what has been transferred before. -/
def answering (answer : List Transfer → UInt8 → ℕ → UInt8) : TracedTransport (List Transfer) where
  readReg reg buf len := access fun l =>
    let buf' := fun i => if i < len.toNat then answer l reg i else buf i
    ((buf', 0), l ++ [.read reg (bufferBytes buf' len) true])
  writeReg reg buf len := access fun l => (0, l ++ [.write reg (bufferBytes buf len) true])
  sleepUs _ := access fun l => ((), l)
  serifType := uiSpi4
  log := id
  log_readReg reg buf len s := by
    rintro _ ⟨⟩
    rfl
  log_writeReg reg buf len s := by
    rintro _ ⟨⟩
    rfl
  log_sleepUs us s := by
    rintro _ ⟨⟩
    rfl

namespace InvImu

variable {σ : Type} (t : TracedTransport σ) {good : Transfer → Prop}

/-! ### Direct registers -/

variable {t}

theorem yields_readDreg (reg : UInt8) (len : UInt32) (buf : ℕ → UInt8) (s : σ) :
    Yields (readDreg t.toInvImuTransport reg len buf) s fun r s' => ∃ ok : Bool,
      t.log s' = t.log s ++ [.read reg (bufferBytes r.1 len) ok] ∧ (r.2 = 0 ↔ ok = true) := by
  rw [readDreg, yields_bind]
  refine (t.log_readReg reg buf len s).imp fun r s' hlog => ?_
  rw [yields_pure]
  refine ⟨_, hlog, ?_⟩
  by_cases h : r.2 = 0 <;> simp [h, invImuErrorTransport, invImuOk]

theorem yields_writeDreg (reg : UInt8) (len : UInt32) (buf : ℕ → UInt8) (s : σ) :
    Yields (writeDreg t.toInvImuTransport reg len buf) s fun r s' => ∃ ok : Bool,
      t.log s' = t.log s ++ [.write reg (bufferBytes buf len) ok] ∧ (r.2 = 0 ↔ ok = true) := by
  rw [writeDreg, yields_bind]
  refine (t.log_writeReg reg buf len s).imp fun status s' hlog => ?_
  rw [yields_pure]
  refine ⟨_, hlog, ?_⟩
  by_cases h : status = 0 <;> simp [h, invImuErrorTransport, invImuOk]

theorem readDreg_reports {reg : UInt8} (hgood : ∀ bytes ok, good (.read reg bytes ok) ↔ ok = true)
    (len : UInt32) (buf : ℕ → UInt8) :
    Reports t.log good (readDreg t.toInvImuTransport reg len buf) fun buf' out =>
      out = [.read reg (bufferBytes buf' len) true] := by
  intro s
  refine (yields_readDreg reg len buf s).imp ?_
  rintro r s' ⟨ok, hlog, hok⟩
  refine ⟨_, hlog, by rw [List.forall_mem_singleton, hgood, hok], fun hstatus => ?_⟩
  rw [hok.mp hstatus]

theorem writeDreg_reports {reg : UInt8} (hgood : ∀ bytes ok, good (.write reg bytes ok) ↔ ok = true)
    (len : UInt32) (buf : ℕ → UInt8) :
    Reports t.log good (writeDreg t.toInvImuTransport reg len buf) fun _ out =>
      out = [.write reg (bufferBytes buf len) true] := by
  intro s
  refine (yields_writeDreg reg len buf s).imp ?_
  rintro r s' ⟨ok, hlog, hok⟩
  refine ⟨_, hlog, by rw [List.forall_mem_singleton, hgood, hok], fun hstatus => ?_⟩
  rw [hok.mp hstatus]

/-! ### Registers behind `IREG_DATA` -/

/-- The addresses that stall the device. -/
def Reserved (a : ℕ) : Prop :=
  (0x23FF < a ∧ a ≤ 0x3FFF) ∨ (0x83FF < a ∧ a ≤ 0x9FFF) ∨ 0xAFFF < a

/-- The test of the two ends finds a reserved address between them too. -/
theorem checkOutOfBoundsMreg_eq_zero_iff {reg len : UInt32} (hlen : 0 < len)
    (hwrap : reg.toNat + len.toNat ≤ 2 ^ 32) :
    checkOutOfBoundsMreg reg len = 0 ↔ ∀ k < len.toNat, ¬Reserved (reg.toNat + k) := by
  have hpos : 0 < len.toNat := UInt32.lt_iff_toNat_lt.mp hlen
  have hreg := reg.toNat_lt
  have hmax : (reg + len - 1).toNat = reg.toNat + len.toNat - 1 := by
    rw [UInt32.toNat_sub, UInt32.toNat_add, UInt32.toNat_one]
    omega
  have hfirst (h : ∀ k < len.toNat, ¬Reserved (reg.toNat + k)) : ¬Reserved reg.toNat := h 0 hpos
  simp only [checkOutOfBoundsMreg, gt_iff_lt, UInt32.lt_iff_toNat_lt, UInt32.le_iff_toNat_le, hmax,
    UInt32.reduceToNat]
  constructor
  · intro hcheck k hk hreserved
    rw [Reserved] at hreserved
    split_ifs at hcheck
    · simp [invImuErrorTransport] at hcheck
    · simp [invImuErrorTransport] at hcheck
    · simp [invImuErrorTransport] at hcheck
    · omega
  · intro h
    have hlast := h (len.toNat - 1) (by omega)
    have hgap := h (0x2400 - reg.toNat)
    have hgap' := h (0x8400 - reg.toNat)
    have hstart := hfirst h
    rw [Reserved] at hlast hgap hgap' hstart
    rw [if_neg (by omega), if_neg (by omega), if_neg (by omega)]
    rfl

theorem checkOutOfBoundsMreg_eq (reg len : UInt32) :
    checkOutOfBoundsMreg reg len = 0 ∨ checkOutOfBoundsMreg reg len = invImuErrorTransport := by
  rw [checkOutOfBoundsMreg]
  split_ifs <;> simp [invImuOk]

/-- The sensor puts the address together again. -/
theorem word16_addressBytes {reg : UInt32} (h : reg ≤ 0xFFFF) :
    word16 ((addressBytes reg).getD 1 0) ((addressBytes reg).getD 0 0) = reg.toNat := by
  have hreg : reg.toNat ≤ 0xFFFF := UInt32.le_iff_toNat_le.mp h
  have hlo : (reg &&& 0xFF).toUInt8.toNat = reg.toNat % 256 := by
    rw [UInt32.toNat_toUInt8, UInt32.toNat_and]
    show (reg.toNat &&& (2 ^ 8 - 1)) % 2 ^ 8 = _
    rw [Nat.and_two_pow_sub_one_eq_mod]
    omega
  have hhi : ((reg &&& 0xFF00) >>> 8).toUInt8.toNat = reg.toNat / 256 := by
    rw [UInt32.toNat_toUInt8, UInt32.toNat_shiftRight, UInt32.toNat_and]
    show ((reg.toNat &&& 0xFF00) >>> 8) % 2 ^ 8 = _
    rw [Nat.shiftRight_and_distrib, Nat.shiftRight_eq_div_pow]
    show (reg.toNat / 2 ^ 8 &&& (2 ^ 8 - 1)) % 2 ^ 8 = _
    rw [Nat.and_two_pow_sub_one_eq_mod]
    omega
  show (reg &&& 0xFF).toUInt8.toNat + 256 * ((reg &&& 0xFF00) >>> 8).toUInt8.toNat = reg.toNat
  rw [hlo, hhi]
  omega

/-- The buffer with `bytes` stored from the `i`-th on. -/
def stored (buf : ℕ → UInt8) (i : ℕ) (bytes : List UInt8) (k : ℕ) : UInt8 :=
  if i ≤ k ∧ k < i + bytes.length then bytes.getD (k - i) 0 else buf k

theorem stored_cons (buf : ℕ → UInt8) (i : ℕ) (b : UInt8) (bytes : List UInt8) :
    stored (Function.update buf i b) (i + 1) bytes = stored buf i (b :: bytes) := by
  funext k
  simp only [stored, List.length_cons, Function.update_apply]
  by_cases hk : k = i
  · rw [if_neg (by omega), if_pos hk, if_pos (by omega), show k - i = 0 by omega]
    rfl
  · rw [if_neg hk]
    by_cases hin : i + 1 ≤ k ∧ k < i + 1 + bytes.length
    · rw [if_pos hin, if_pos (by omega), show k - i = k - (i + 1) + 1 by omega,
        List.getD_cons_succ]
    · rw [if_neg hin, if_neg (by omega)]

@[simp] theorem stored_nil (buf : ℕ → UInt8) (i : ℕ) : stored buf i [] = buf := by
  funext k
  simp only [stored, List.length_nil]
  rw [if_neg (by omega)]

/-- What is read one by one. -/
def dataReads (answers : List (UInt8 × Bool)) : List Transfer :=
  answers.map fun a => .read iregData [a.1] a.2

/-- What is written one by one. -/
def dataWrites (answers : List (UInt8 × Bool)) : List Transfer :=
  answers.map fun a => .write iregData [a.1] a.2

theorem yields_readEach (n i : ℕ) (buf : ℕ → UInt8) (status : ℤ) (s : σ) :
    Yields ((readEach t.toInvImuTransport n i buf).run status) s fun r s' =>
      ∃ answers, answers.length = n ∧ t.log s' = t.log s ++ dataReads answers ∧
        (r.2 = 0 ↔ status = 0 ∧ ∀ a ∈ answers, a.2 = true) ∧
        r.1 = stored buf i (answers.map Prod.fst) := by
  induction n generalizing i buf status s with
  | zero =>
      rw [readEach, StateT.run_pure, yields_pure]
      exact ⟨[], rfl, by simp [dataReads], by simp, by simp⟩
  | succ n ih =>
      rw [readEach, StateT.run_bind, yields_bind, yields_lift]
      refine (t.log_sleepUs 4 s).imp fun _ s₁ hsleep => ?_
      rw [StateT.run_bind, yields_bind, yields_orStatus]
      refine (yields_readDreg iregData 1 _ s₁).imp ?_
      rintro r s₂ ⟨ok, hlog, hok⟩
      refine (ih (i + 1) _ _ s₂).imp ?_
      rintro r' s₃ ⟨answers, hlength, hlog', hstatus, hbuf⟩
      refine ⟨(r.1 0, ok) :: answers, by rw [List.length_cons, hlength], ?_, ?_, ?_⟩
      · rw [hlog', hlog, hsleep, List.append_assoc]
        rfl
      · rw [hstatus, lor_eq_zero_iff, hok, List.forall_mem_cons, and_assoc]
      · rw [hbuf, stored_cons, List.map_cons]

theorem yields_writeEach (buf : ℕ → UInt8) (n i : ℕ) (status : ℤ) (s : σ) :
    Yields ((writeEach t.toInvImuTransport buf n i).run status) s fun r s' =>
      ∃ answers, answers.map Prod.fst = (List.range' i n).map buf ∧
        t.log s' = t.log s ++ dataWrites answers ∧
        (r.2 = 0 ↔ status = 0 ∧ ∀ a ∈ answers, a.2 = true) := by
  induction n generalizing i status s with
  | zero =>
      rw [writeEach, StateT.run_pure, yields_pure]
      exact ⟨[], rfl, by simp [dataWrites], by simp⟩
  | succ n ih =>
      rw [writeEach, StateT.run_bind, yields_bind, yields_orStatus]
      refine (yields_writeDreg iregData 1 _ s).imp ?_
      rintro r s₁ ⟨ok, hlog, hok⟩
      rw [StateT.run_bind, yields_bind, yields_lift]
      refine (t.log_sleepUs 4 s₁).imp fun _ s₂ hsleep => ?_
      refine (ih (i + 1) _ s₂).imp ?_
      rintro r' s₃ ⟨answers, hbytes, hlog', hstatus⟩
      refine ⟨(buf i, ok) :: answers, ?_, ?_, ?_⟩
      · rw [List.map_cons, hbytes, List.range'_succ, List.map_cons]
      · rw [hlog', hsleep, hlog, List.append_assoc]
        rfl
      · rw [hstatus, lor_eq_zero_iff, hok, List.forall_mem_cons, and_assoc]

section Mreg

variable {reg len : UInt32} (buf : ℕ → UInt8) (s : σ)

theorem yields_readMreg_refused (h : checkOutOfBoundsMreg reg len ≠ 0) :
    Yields (readMreg t.toInvImuTransport reg len buf) s fun r s' =>
      t.log s' = t.log s ∧ r = (buf, invImuErrorTransport) := by
  rw [readMreg, returnStatus, StateT.run_bind, yields_bind, yields_orStatus, yields_pure,
    yields_leave]
  dsimp only
  rw [zero_lor, if_pos h, (checkOutOfBoundsMreg_eq reg len).resolve_left h]
  exact ⟨rfl, rfl⟩

theorem yields_writeMreg_refused (h : checkOutOfBoundsMreg reg len ≠ 0) :
    Yields (writeMreg t.toInvImuTransport reg len buf) s fun r s' =>
      t.log s' = t.log s ∧ r.2 = invImuErrorTransport := by
  rw [writeMreg, returnStatus, StateT.run_bind, yields_bind, yields_orStatus, yields_pure,
    yields_leave]
  dsimp only
  rw [zero_lor, if_pos h, (checkOutOfBoundsMreg_eq reg len).resolve_left h]
  exact ⟨rfl, rfl⟩

theorem yields_readMreg (h : checkOutOfBoundsMreg reg len = 0) :
    Yields (readMreg t.toInvImuTransport reg len buf) s fun r s' => ∃ sent answers,
      t.log s' = t.log s ++ .write iregAddr158 (addressBytes reg) sent :: dataReads answers ∧
      answers.length = (if sent = true then len.toNat else 0) ∧
      (r.2 = 0 ↔ sent = true ∧ ∀ a ∈ answers, a.2 = true) ∧
      r.1 = stored buf 0 (answers.map Prod.fst) := by
  rw [readMreg, returnStatus, StateT.run_bind, yields_bind, yields_orStatus, yields_pure,
    yields_leave]
  dsimp only
  rw [zero_lor, if_neg (not_not.mpr h), h, StateT.run_bind, yields_bind, yields_lift]
  refine (t.log_sleepUs 4 s).imp fun _ s₁ hsleep => ?_
  rw [StateT.run_bind, yields_bind, yields_orStatus]
  refine (yields_writeDreg iregAddr158 2 _ s₁).imp ?_
  rintro r s₂ ⟨sent, hlog, hsent⟩
  rw [yields_leave]
  dsimp only
  rw [zero_lor]
  have haddress : t.log s₂ = t.log s ++ [.write iregAddr158 (addressBytes reg) sent] := by
    rw [hlog, hsleep]
    rfl
  by_cases hr : r.2 = 0
  · rw [if_neg (not_not.mpr hr)]
    have hdone : sent = true := hsent.mp hr
    refine (yields_readEach _ 0 buf r.2 s₂).imp ?_
    rintro r' s₃ ⟨answers, hlength, hlog', hstatus, hbuf⟩
    refine ⟨sent, answers, ?_, by rw [if_pos hdone, hlength], by rw [hstatus, hsent], hbuf⟩
    rw [hlog', haddress, List.append_assoc]
    rfl
  · rw [if_pos hr]
    have hfailed : sent = false := by simpa [hsent] using hr
    exact ⟨sent, [], haddress, by simp [hfailed], by simp [hsent], by simp⟩

theorem yields_writeMreg (h : checkOutOfBoundsMreg reg len = 0) :
    Yields (writeMreg t.toInvImuTransport reg len buf) s fun r s' => ∃ sent answers,
      t.log s' = t.log s ++
        .write iregAddr158 (addressBytes reg ++ [buf 0]) sent :: dataWrites answers ∧
      answers.map Prod.fst =
        (if sent = true then (List.range' 1 (len.toNat - 1)).map buf else []) ∧
      (r.2 = 0 ↔ sent = true ∧ ∀ a ∈ answers, a.2 = true) := by
  rw [writeMreg, returnStatus, StateT.run_bind, yields_bind, yields_orStatus, yields_pure,
    yields_leave]
  dsimp only
  rw [zero_lor, if_neg (not_not.mpr h), h, StateT.run_bind, yields_bind, yields_lift]
  refine (t.log_sleepUs 4 s).imp fun _ s₁ hsleep => ?_
  rw [StateT.run_bind, yields_bind, yields_orStatus]
  refine (yields_writeDreg iregAddr158 3 _ s₁).imp ?_
  rintro r s₂ ⟨sent, hlog, hsent⟩
  rw [StateT.run_bind, yields_bind, yields_lift]
  refine (t.log_sleepUs 4 s₂).imp fun _ s₃ hsleep' => ?_
  rw [yields_leave]
  dsimp only
  rw [zero_lor]
  have haddress :
      t.log s₃ = t.log s ++ [.write iregAddr158 (addressBytes reg ++ [buf 0]) sent] := by
    rw [hsleep', hlog, hsleep]
    rfl
  by_cases hr : r.2 = 0
  · rw [if_neg (not_not.mpr hr)]
    have hdone : sent = true := hsent.mp hr
    refine (yields_writeEach buf _ 1 r.2 s₃).imp ?_
    rintro r' s₄ ⟨answers, hbytes, hlog', hstatus⟩
    refine ⟨sent, answers, ?_, by rw [if_pos hdone, hbytes], by rw [hstatus, hsent]⟩
    rw [hlog', haddress, List.append_assoc]
    rfl
  · rw [if_pos hr]
    have hfailed : sent = false := by simpa [hsent] using hr
    exact ⟨sent, [], haddress, by simp [hfailed], by simp [hsent]⟩

end Mreg

/-! ### The functions of the driver -/

section Indirect

variable {reg len : UInt32} (hreg : 0xFF < reg) (hreg' : reg ≤ 0xFFFF) (buf : ℕ → UInt8)

include hreg hreg' in
theorem readReg_eq (t : InvImuTransport σ) : readReg t reg len buf = readMreg t reg len buf := by
  have hmask : reg &&& 0xFFFF = reg := by
    rw [← UInt32.toNat_inj, UInt32.toNat_and]
    show reg.toNat &&& (2 ^ 16 - 1) = _
    rw [Nat.and_two_pow_sub_one_eq_mod]
    have := UInt32.le_iff_toNat_le.mp hreg'
    exact Nat.mod_eq_of_lt (Nat.lt_succ_of_le this)
  rw [readReg, if_pos hreg, hmask]

include hreg in
theorem writeReg_eq (t : InvImuTransport σ) : writeReg t reg len buf = writeMreg t reg len buf := by
  rw [writeReg, if_pos hreg]

end Indirect

end InvImu

/-! ### Calls -/

open InvImu

/-- A call of `inv_imu_read_reg` or `inv_imu_write_reg`. -/
inductive RegCall
  | read (reg len : UInt32) (buf : ℕ → UInt8)
  | write (reg len : UInt32) (buf : ℕ → UInt8)

namespace RegCall

def reg : RegCall → UInt32
  | read reg _ _ | write reg _ _ => reg

def len : RegCall → UInt32
  | read _ len _ | write _ len _ => len

def buf : RegCall → ℕ → UInt8
  | read _ _ buf | write _ _ buf => buf

/-- The buffer afterwards and the status. -/
def run {σ : Type} (t : InvImuTransport σ) : RegCall → Driver σ ((ℕ → UInt8) × ℤ)
  | read reg len buf => InvImu.readReg t reg len buf
  | write reg len buf => do
      let r ← InvImu.writeReg t reg len buf
      return (buf, r.2)

/-- A register behind `IREG_DATA`, some bytes, and an end that does not wrap. -/
structure Indirect (call : RegCall) : Prop where
  above : 0xFF < call.reg
  below : call.reg ≤ 0xFFFF
  some : 0 < call.len
  end_le : call.reg.toNat + call.len.toNat ≤ 2 ^ 32

/-- What is sent where the address was taken or not, and every byte after it answered so. -/
def traffic (sent : Bool) (answers : List (UInt8 × Bool)) : RegCall → List Transfer
  | read reg _ _ => .write iregAddr158 (addressBytes reg) sent :: dataReads answers
  | write reg _ buf => .write iregAddr158 (addressBytes reg ++ [buf 0]) sent :: dataWrites answers

/-- One byte after the other, all of them where the address was taken and none where it was
not, and the buffer afterwards. -/
def Carries (sent : Bool) (answers : List (UInt8 × Bool)) (buf' : ℕ → UInt8) : RegCall → Prop
  | read _ len buf =>
      answers.length = (if sent = true then len.toNat else 0) ∧
        buf' = stored buf 0 (answers.map Prod.fst)
  | write _ len buf =>
      answers.map Prod.fst =
          (if sent = true then (List.range' 1 (len.toNat - 1)).map buf else []) ∧ buf' = buf

def Touches (call : RegCall) (a : ℕ) : Prop :=
  call.reg.toNat ≤ a ∧ a < call.reg.toNat + call.len.toNat

theorem check_eq_zero_iff {call : RegCall} (h : call.Indirect) :
    checkOutOfBoundsMreg call.reg call.len = 0 ↔ ∀ a, call.Touches a → ¬Reserved a := by
  rw [checkOutOfBoundsMreg_eq_zero_iff h.some h.end_le]
  constructor
  · rintro hk a ⟨hlo, hhi⟩
    have ha := hk (a - call.reg.toNat) (by omega)
    rwa [Nat.add_sub_cancel' hlo] at ha
  · exact fun ha k hk => ha _ ⟨Nat.le_add_right _ _, by omega⟩

variable {σ : Type} (t : TracedTransport σ) {call : RegCall} (h : call.Indirect) (s : σ)

include h in
theorem yields_refused (hcheck : checkOutOfBoundsMreg call.reg call.len ≠ 0) :
    Yields (call.run t.toInvImuTransport) s fun r s' =>
      t.log s' = t.log s ∧ r = (call.buf, invImuErrorTransport) := by
  obtain ⟨habove, hbelow, -, -⟩ := h
  cases call with
  | read reg len buf =>
      rw [RegCall.reg] at habove hbelow
      rw [run, readReg_eq habove hbelow]
      exact yields_readMreg_refused buf s hcheck
  | write reg len buf =>
      rw [RegCall.reg] at habove
      rw [run, writeReg_eq habove, yields_bind]
      refine (yields_writeMreg_refused buf s hcheck).imp ?_
      rintro r s' ⟨hlog, hr⟩
      rw [yields_pure, hr]
      exact ⟨hlog, rfl⟩

include h in
theorem yields_accepted (hcheck : checkOutOfBoundsMreg call.reg call.len = 0) :
    Yields (call.run t.toInvImuTransport) s fun r s' => ∃ sent answers,
      t.log s' = t.log s ++ call.traffic sent answers ∧ call.Carries sent answers r.1 ∧
        (r.2 = 0 ↔ sent = true ∧ ∀ a ∈ answers, a.2 = true) := by
  obtain ⟨habove, hbelow, -, -⟩ := h
  cases call with
  | read reg len buf =>
      rw [RegCall.reg] at habove hbelow
      rw [run, readReg_eq habove hbelow]
      refine (yields_readMreg buf s hcheck).imp ?_
      rintro r s' ⟨sent, answers, hlog, hlength, hstatus, hbuf⟩
      exact ⟨sent, answers, hlog, ⟨hlength, hbuf⟩, hstatus⟩
  | write reg len buf =>
      rw [RegCall.reg] at habove
      rw [run, writeReg_eq habove, yields_bind]
      refine (yields_writeMreg buf s hcheck).imp ?_
      rintro r s' ⟨sent, answers, hlog, hbytes, hstatus⟩
      rw [yields_pure]
      exact ⟨sent, answers, hlog, ⟨hbytes, rfl⟩, hstatus⟩

end RegCall

end NuedcFirmware.Modules
