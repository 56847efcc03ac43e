import NuedcFirmware.Lib.Bytes
import NuedcFirmware.Modules.InvImuTraffic

/-!
The sensor as a store of registers, and that the driver makes a memory of it.

What is relied on of the sensor: a register that is written holds the byte; an access to
`IREG_DATA` is one to the register at the address written last, which goes up by one; a reset
leaves the registers as it likes; and of a transfer that failed nothing is known. Over such a
sensor any sequence of calls of `inv_imu_read_reg` and `inv_imu_write_reg` that report success
is the same sequence on a plain memory (`calls_refine_memory`).
-/

namespace NuedcFirmware.Modules

open NuedcFirmware.Lib

structure RegisterFile where
  direct : UInt8 → UInt8
  /-- Behind `IREG_DATA`. -/
  indirect : ℕ → UInt8
  pointer : ℕ

/-- The direct registers that the driver configures; others may change by themselves. -/
def keptRegisters : List UInt8 :=
  [InvImu.pwrMgmt0, InvImu.int1Config0, InvImu.int1Config1, InvImu.int1Config2,
    InvImu.accelConfig0, InvImu.gyroConfig0, InvImu.intfConfig1Ovrd,
    InvImu.driveConfig0].map UInt32.toUInt8

namespace RegisterFile

/-- A write through `IREG_DATA`. -/
def store (c : RegisterFile) (b : UInt8) : RegisterFile :=
  { c with indirect := Function.update c.indirect c.pointer b, pointer := c.pointer + 1 }

/-- What the sensor may answer to a transfer, and how it is left. -/
inductive Answers : RegisterFile → Transfer → RegisterFile → Prop
  | failed {c c' tr} (h : tr.ok = false) : Answers c tr c'
  | readKept {c reg} (h : reg ∈ keptRegisters) : Answers c (.read reg [c.direct reg] true) c
  | readOther {c reg bytes} (h : reg ∉ keptRegisters) (hdata : reg ≠ iregData) :
      Answers c (.read reg bytes true) c
  | readData {c} :
      Answers c (.read iregData [c.indirect c.pointer] true) { c with pointer := c.pointer + 1 }
  | write {c reg b} (haddr : reg ≠ iregAddr158) (hdata : reg ≠ iregData)
      (hmisc : reg ≠ InvImu.regMisc2.toUInt8) :
      Answers c (.write reg [b] true) { c with direct := Function.update c.direct reg b }
  | address {c hi lo} :
      Answers c (.write iregAddr158 [hi, lo] true) { c with pointer := word16 lo hi }
  | addressData {c hi lo b} :
      Answers c (.write iregAddr158 [hi, lo, b] true) (store { c with pointer := word16 lo hi } b)
  | writeData {c b} : Answers c (.write iregData [b] true) (c.store b)
  | reset {c c' b} : Answers c (.write InvImu.regMisc2.toUInt8 [b] true) c'

/-- The same of transfers one after the other. -/
inductive AnswersAll : RegisterFile → List Transfer → RegisterFile → Prop
  | nil {c} : AnswersAll c [] c
  | cons {c c' c'' tr trs} (h : Answers c tr c') (hrest : AnswersAll c' trs c'') :
      AnswersAll c (tr :: trs) c''

theorem answersAll_append {c c'' : RegisterFile} {trs trs' : List Transfer} :
    AnswersAll c (trs ++ trs') c'' ↔ ∃ c', AnswersAll c trs c' ∧ AnswersAll c' trs' c'' := by
  induction trs generalizing c with
  | nil =>
      constructor
      · exact fun h => ⟨c, .nil, h⟩
      · rintro ⟨c', ⟨⟩, h⟩
        exact h
  | cons tr trs ih =>
      constructor
      · rintro (_ | ⟨h, hrest⟩)
        obtain ⟨c', hfirst, hlast⟩ := ih.mp hrest
        exact ⟨c', .cons h hfirst, hlast⟩
      · rintro ⟨c', _ | ⟨h, hrest⟩, hlast⟩
        exact .cons h (ih.mpr ⟨c', hrest, hlast⟩)

/-! ### Runs of data -/

theorem answersAll_dataReads {c c' : RegisterFile} {answers : List (UInt8 × Bool)}
    (hok : ∀ a ∈ answers, a.2 = true) (h : AnswersAll c (InvImu.dataReads answers) c') :
    answers.map Prod.fst = (List.range' c.pointer answers.length).map c.indirect ∧
      c'.indirect = c.indirect ∧ c'.direct = c.direct := by
  induction answers generalizing c with
  | nil =>
      cases h
      exact ⟨rfl, rfl, rfl⟩
  | cons a answers ih =>
      obtain ⟨b, ok⟩ := a
      obtain ⟨rfl, hok'⟩ := List.forall_mem_cons.mp hok
      cases h with
      | cons hfirst hrest =>
        cases hfirst with
        | failed h => cases h
        | readKept h => exact absurd h (by decide)
        | readOther h hdata => exact absurd rfl hdata
        | readData =>
            obtain ⟨hbytes, hindirect, hdirect⟩ := ih hok' hrest
            refine ⟨?_, hindirect, hdirect⟩
            rw [List.map_cons, hbytes, List.length_cons, List.range'_succ, List.map_cons]

theorem answersAll_dataWrites {c c' : RegisterFile} {answers : List (UInt8 × Bool)}
    (hok : ∀ a ∈ answers, a.2 = true) (h : AnswersAll c (InvImu.dataWrites answers) c') :
    c'.indirect = InvImu.stored c.indirect c.pointer (answers.map Prod.fst) ∧
      c'.direct = c.direct := by
  induction answers generalizing c with
  | nil =>
      cases h
      exact ⟨(InvImu.stored_nil _ _).symm, rfl⟩
  | cons a answers ih =>
      obtain ⟨b, ok⟩ := a
      obtain ⟨rfl, hok'⟩ := List.forall_mem_cons.mp hok
      cases h with
      | cons hfirst hrest =>
        cases hfirst with
        | failed h => cases h
        | write haddr hdata hmisc => exact absurd rfl hdata
        | writeData =>
            obtain ⟨hindirect, hdirect⟩ := ih hok' hrest
            refine ⟨?_, hdirect⟩
            rw [hindirect, List.map_cons, ← InvImu.stored_cons]
            rfl

end RegisterFile

/-! ### Calls -/

open RegisterFile

namespace RegCall

/-- The call on a plain memory: the buffer afterwards, and the memory. -/
def onMemory (m : ℕ → UInt8) : RegCall → (ℕ → UInt8) × (ℕ → UInt8)
  | read reg len buf => (InvImu.stored buf 0 ((List.range' reg.toNat len.toNat).map m), m)
  | write reg len buf => (buf, InvImu.stored m reg.toNat (bufferBytes buf len))

end RegCall

/-- Calls one after the other: what each leaves in its buffer, and its status. -/
def runCalls {σ : Type} (t : InvImuTransport σ) : List RegCall → Driver σ (List ((ℕ → UInt8) × ℤ))
  | [] => return []
  | call :: calls => do
      let r ← call.run t
      let rs ← runCalls t calls
      return r :: rs

/-- The same on a plain memory. -/
def onMemory (m : ℕ → UInt8) : List RegCall → List (ℕ → UInt8) × (ℕ → UInt8)
  | [] => ([], m)
  | call :: calls =>
      let (buf, m) := call.onMemory m
      let (bufs, m) := onMemory m calls
      (buf :: bufs, m)

section Refinement

variable {σ : Type} (t : TracedTransport σ)

theorem bufferBytes_eq {len : UInt32} (h : 0 < len) (buf : ℕ → UInt8) :
    bufferBytes buf len = buf 0 :: (List.range' 1 (len.toNat - 1)).map buf := by
  have hpos : 0 < len.toNat := UInt32.lt_iff_toNat_lt.mp h
  rw [bufferBytes, List.range_eq_range', show len.toNat = len.toNat - 1 + 1 by omega,
    List.range'_succ, List.map_cons, Nat.add_sub_cancel]

/-- What the sensor makes of the transfers of a call, all of them successful. -/
theorem answersAll_traffic {call : RegCall} (h : call.Indirect) {answers : List (UInt8 × Bool)}
    (hok : ∀ a ∈ answers, a.2 = true) {buf' : ℕ → UInt8} (hcarries : call.Carries true answers buf')
    {c c' : RegisterFile} (hall : AnswersAll c (call.traffic true answers) c') :
    (buf', c'.indirect) = call.onMemory c.indirect ∧ c'.direct = c.direct := by
  have hpointer := InvImu.word16_addressBytes h.below
  have hsome := h.some
  cases call with
  | read reg len buf =>
      obtain ⟨hlength, rfl⟩ := hcarries
      cases hall with
      | cons hfirst hrest =>
        cases hfirst with
        | failed h => cases h
        | address =>
            obtain ⟨hbytes, hindirect, hdirect⟩ := answersAll_dataReads hok hrest
            refine ⟨?_, hdirect⟩
            rw [hbytes, hindirect, hlength, if_pos rfl]
            exact congrArg (fun a => (InvImu.stored buf 0 ((List.range' a _).map _), _)) hpointer
  | write reg len buf =>
      obtain ⟨hbytes, rfl⟩ := hcarries
      cases hall with
      | cons hfirst hrest =>
        cases hfirst with
        | failed h => cases h
        | addressData =>
            obtain ⟨hindirect, hdirect⟩ := answersAll_dataWrites hok hrest
            refine ⟨?_, hdirect⟩
            rw [RegCall.reg] at hpointer
            rw [RegCall.len] at hsome
            rw [hindirect, hbytes, if_pos rfl, RegCall.onMemory, bufferBytes_eq hsome,
              ← InvImu.stored_cons, ← hpointer]
            rfl

theorem yields_onMemory {call : RegCall} (h : call.Indirect) (s : σ) :
    Yields (call.run t.toInvImuTransport) s fun r s' => r.2 = 0 → ∃ out,
      t.log s' = t.log s ++ out ∧ ∀ c c', AnswersAll c out c' →
        (r.1, c'.indirect) = call.onMemory c.indirect ∧ c'.direct = c.direct := by
  by_cases hcheck : InvImu.checkOutOfBoundsMreg call.reg call.len = 0
  · refine (RegCall.yields_accepted t h s hcheck).imp ?_
    rintro r s' ⟨sent, answers, hlog, hcarries, hstatus⟩ hr
    obtain ⟨rfl, hok⟩ := hstatus.mp hr
    exact ⟨_, hlog, fun c c' hall => answersAll_traffic h hok hcarries hall⟩
  · refine (RegCall.yields_refused t h s hcheck).imp ?_
    rintro r s' ⟨-, rfl⟩ hr
    cases hr

/-- A memory. Where every call of a sequence reports success, what the calls leave in their
buffers and what the sensor holds behind `IREG_DATA` then is what the same calls do on a
plain memory; the direct registers are as they were. -/
theorem calls_refine_memory {calls : List RegCall} (h : ∀ call ∈ calls, call.Indirect) (s : σ) :
    Yields (runCalls t.toInvImuTransport calls) s fun rs s' => (∀ r ∈ rs, r.2 = 0) → ∃ out,
      t.log s' = t.log s ++ out ∧ ∀ c c', AnswersAll c out c' →
        (rs.map Prod.fst, c'.indirect) = onMemory c.indirect calls ∧ c'.direct = c.direct := by
  induction calls generalizing s with
  | nil =>
      rw [runCalls, yields_pure]
      refine fun _ => ⟨[], by simp, fun c c' hall => ?_⟩
      cases hall
      exact ⟨rfl, rfl⟩
  | cons call calls ih =>
      obtain ⟨hcall, hcalls⟩ := List.forall_mem_cons.mp h
      rw [runCalls, yields_bind]
      refine (yields_onMemory t hcall s).imp fun r s₁ hfirst => ?_
      rw [yields_bind]
      refine (ih hcalls s₁).imp fun rs s₂ hrest => ?_
      rw [yields_pure]
      intro hok
      obtain ⟨hr, hrs⟩ := List.forall_mem_cons.mp hok
      obtain ⟨out₁, hlog₁, hmem₁⟩ := hfirst hr
      obtain ⟨out₂, hlog₂, hmem₂⟩ := hrest hrs
      refine ⟨out₁ ++ out₂, by rw [hlog₂, hlog₁, List.append_assoc], fun c c' hall => ?_⟩
      obtain ⟨c₁, hall₁, hall₂⟩ := answersAll_append.mp hall
      obtain ⟨hm₁, hd₁⟩ := hmem₁ c c₁ hall₁
      obtain ⟨hm₂, hd₂⟩ := hmem₂ c₁ c' hall₂
      refine ⟨?_, hd₂.trans hd₁⟩
      rw [onMemory, ← hm₁]
      dsimp only
      rw [← hm₂, List.map_cons]

end Refinement

/-- The bandwidth of the accelerometer is written and read back. -/
def writtenAndRead : List RegCall :=
  [.write 0xA583 1 fun _ => 0x01, .read 0xA583 1 fun _ => 0xFF]

/-- What is sent for it. -/
def sent : List Transfer :=
  [.write iregAddr158 [0xA5, 0x83, 0x01] true, .write iregAddr158 [0xA5, 0x83] true,
    .read iregData [0x01] true]

theorem calls_refine_memory_written :
    ∃ r ∈ (runCalls (answering fun _ _ _ => 0x01).toInvImuTransport writtenAndRead).run [],
      ∃ c', AnswersAll ⟨fun _ => 0, fun _ => 0, 0⟩ r.2 c' ∧
        (r.1.map Prod.fst, c'.indirect) = onMemory (fun _ => 0) writtenAndRead := by
  have hindirect : ∀ call ∈ writtenAndRead, call.Indirect := by
    intro call hcall
    simp only [writtenAndRead, List.mem_cons, List.not_mem_nil, or_false] at hcall
    obtain rfl | rfl := hcall <;> exact ⟨by decide, by decide, by decide, by decide⟩
  obtain ⟨out, hlog, hmem⟩ :=
    calls_refine_memory (answering fun _ _ _ => 0x01) hindirect [] _ rfl (by decide)
  have hout : sent = out := hlog
  obtain ⟨c', hall⟩ : ∃ c', AnswersAll ⟨fun _ => 0, fun _ => 0, 0⟩ sent c' :=
    ⟨_, .cons .addressData (.cons .address (.cons .readData .nil))⟩
  exact ⟨_, rfl, c', hall, (hmem _ _ (hout ▸ hall)).1⟩

end NuedcFirmware.Modules
