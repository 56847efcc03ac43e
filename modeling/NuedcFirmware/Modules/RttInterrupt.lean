import NuedcFirmware.Modules.RttLog

/-!
`RTT_Log_Write` preempted by an interrupt that writes too.

The task checks the free space, takes a private copy of `wr_off`, stores its bytes from
there and stores the copy back. A reply from the receive interrupt runs as a whole
between two of these steps. Before the copy is taken it only costs space; after that it
writes to the same cells as the task, and the task's last store takes its `wr_off` back.
The theorem of this module says which interleavings keep every message whole.
-/

namespace NuedcFirmware.Modules.RttInterrupt

open NuedcFirmware.Lib RttLog

/-- Where the call of the task stands. -/
inductive Task
  | entered (data : Option (ℕ → UInt8)) (len : UInt32)
  | checked (data : ℕ → UInt8) (len : UInt32)
  | copying (data : ℕ → UInt8) (len wr : UInt32) (i : ℕ)
  | done

/-- The buffer, the call of the task, and the messages that were accepted so far. -/
structure Machine where
  buf : RttBufferUp
  task : Task
  accepted : List (List UInt8)

inductive Event
  | task
  | irq (data : Option (ℕ → UInt8)) (len : UInt32)

/-- The next step of the task: the tests, the read of `wr_off`, one byte, or the store of
`wr_off`. -/
def taskStep (s : Machine) : Machine :=
  match s.task with
  | .entered none _ => { s with task := .done }
  | .entered (some data) len =>
      if len = 0 then { s with task := .done }
      else if len ≥ s.buf.size then { s with task := .done }
      else if spaceAvailable s.buf < len then { s with task := .done }
      else { s with task := .checked data len, accepted := s.accepted ++ [message data len] }
  | .checked data len => { s with task := .copying data len s.buf.wrOff 0 }
  | .copying data len wr i =>
      if i < len.toNat then
        let (buffer, wr) := copyByte s.buf.size (s.buf.buffer, wr) (data i)
        { s with buf := { s.buf with buffer }, task := .copying data len wr (i + 1) }
      else { s with buf := { s.buf with wrOff := wr }, task := .done }
  | .done => s

/-- A call at interrupt level, as a whole. -/
def irqStep (data : Option (ℕ → UInt8)) (len : UInt32) (s : Machine) : Machine :=
  { s with
    buf := rttLogWrite data len s.buf
    accepted :=
      match data with
      | some data =>
          if Accepts s.buf len then s.accepted ++ [message data len] else s.accepted
      | none => s.accepted }

def step (s : Machine) : Event → Machine
  | .task => taskStep s
  | .irq data len => irqStep data len s

def start (buf : RttBufferUp) (data : Option (ℕ → UInt8)) (len : UInt32) : Machine where
  buf := buf
  task := .entered data len
  accepted := []

/-- The stream is what it was, and behind it every accepted message in one piece. -/
def Intact (before : List UInt8) (s : Machine) : Prop :=
  ∃ order : List (List UInt8), order.Perm s.accepted ∧ unread s.buf = before ++ order.flatten

/-- The message of the task still fits when `wr_off` is read, and from then on nothing is
accepted at interrupt level. -/
def Undisturbed (s : Machine) : Event → Prop
  | .task => ∀ data len, s.task = .checked data len → ¬ spaceAvailable s.buf < len
  | .irq data len => ∀ data' len' wr i, s.task = .copying data' len' wr i →
      data = none ∨ ¬ Accepts s.buf len

/-! ### The task alone -/

theorem taskStep_done {s : Machine} (h : s.task = .done) : taskStep s = s := by
  rw [taskStep, h]

theorem exec_done {s : Machine} (h : s.task = .done) (k : ℕ) :
    exec step s (List.replicate k .task) = s := by
  induction k with
  | zero => rfl
  | succ k ih =>
      rw [List.replicate_succ, exec_cons, step, taskStep_done h]
      exact ih

/-- The steps of the loop, and the store behind them, are the loop of `RTT_Log_Write`. -/
theorem exec_copying {s : Machine} {data : ℕ → UInt8} {len wr : UInt32} {i k : ℕ}
    (h : s.task = .copying data len wr i) (hk : i + k = len.toNat) :
    (exec step s (List.replicate (k + 1) .task)).buf =
      { s.buf with
        buffer := (((message data len).drop i).foldl (copyByte s.buf.size) (s.buf.buffer, wr)).1
        wrOff := (((message data len).drop i).foldl (copyByte s.buf.size)
          (s.buf.buffer, wr)).2 } := by
  induction k generalizing s wr i with
  | zero =>
      have hend : (message data len).drop i = [] := by
        rw [List.drop_eq_nil_iff, length_message]
        omega
      have hlast : ¬ i < len.toNat := by omega
      simp [hend, step, taskStep, h, hlast]
  | succ k ih =>
      have hmore : i < len.toNat := by omega
      have hstep : step s .task =
          { s with
            buf := { s.buf with buffer := (copyByte s.buf.size (s.buf.buffer, wr) (data i)).1 }
            task := .copying data len (copyByte s.buf.size (s.buf.buffer, wr) (data i)).2
              (i + 1) } := by
        rw [step, taskStep, h]
        exact if_pos hmore
      have hdrop : (message data len).drop i = data i :: (message data len).drop (i + 1) := by
        rw [List.drop_eq_getElem_cons (by rwa [length_message])]
        simp [message]
      have hrest := ih (s := step s .task) (by rw [hstep]) (by omega)
      rw [List.replicate_succ, exec_cons, hrest, hstep, hdrop]
      rfl

/-- Undisturbed, the steps of the task are `RTT_Log_Write`. -/
theorem exec_task (buf : RttBufferUp) (data : Option (ℕ → UInt8)) (len : UInt32) :
    (exec step (start buf data len) (List.replicate (len.toNat + 3) .task)).buf =
      rttLogWrite data len buf := by
  rw [List.replicate_succ, exec_cons]
  cases data with
  | none => rw [step, taskStep, start, exec_done rfl, rttLogWrite]
  | some data =>
      by_cases hrefused : len = 0 ∨ len ≥ buf.size ∨ spaceAvailable buf < len
      · have hstep : step (start buf (some data) len) .task = ⟨buf, .done, []⟩ := by
          rcases hrefused with h | h | h <;> simp [step, taskStep, start, h]
        have hwrite : rttLogWrite (some data) len buf = buf := by
          rcases hrefused with h | h | h <;> simp [rttLogWrite, h]
        rw [hstep, exec_done rfl, hwrite]
      · obtain ⟨hzero, hlarge, hfull⟩ : len ≠ 0 ∧ ¬ len ≥ buf.size ∧ ¬ spaceAvailable buf < len := by
          simpa only [not_or] using hrefused
        have hstep : step (start buf (some data) len) .task =
            ⟨buf, .checked data len, [message data len]⟩ := by
          rw [step, taskStep, start]
          dsimp only
          rw [if_neg hzero, if_neg hlarge, if_neg hfull]
          rfl
        rw [hstep, List.replicate_succ, exec_cons, rttLogWrite, if_neg hzero, if_neg hlarge,
          if_neg hfull]
        exact exec_copying (i := 0) (k := len.toNat) rfl (Nat.zero_add _)

/-! ### What a call at interrupt level does -/

@[simp] theorem task_irqStep (data : Option (ℕ → UInt8)) (len : UInt32) (s : Machine) :
    (irqStep data len s).task = s.task := rfl

/-- It does nothing, or it is accepted. -/
theorem irqStep_cases {s : Machine} (h : WellFormed s.buf) (data : Option (ℕ → UInt8))
    (len : UInt32) :
    (irqStep data len s = s ∧ (data = none ∨ ¬ Accepts s.buf len)) ∨
      ∃ bytes : List UInt8, 0 < bytes.length ∧ data ≠ none ∧ Accepts s.buf len ∧
        Holds (irqStep data len s).buf (unread s.buf ++ bytes) ∧
        (irqStep data len s).buf.size = s.buf.size ∧
        (irqStep data len s).buf.rdOff = s.buf.rdOff ∧
        (irqStep data len s).accepted = s.accepted ++ [bytes] := by
  cases data with
  | none => exact Or.inl ⟨rfl, Or.inl rfl⟩
  | some data =>
      by_cases hlen : Accepts s.buf len
      · obtain ⟨hholds, hsize, hrd⟩ := rttLogWrite_of_accepts h hlen data
        refine Or.inr ⟨message data len, ?_, by simp, hlen, hholds, hsize, hrd, if_pos hlen⟩
        rw [length_message]
        exact hlen.1
      · refine Or.inl ⟨?_, Or.inr hlen⟩
        simp [irqStep, rttLogWrite_of_not_accepts h hlen, hlen]

/-! ### Good states -/

/-- The buffer holds the stream, with the accepted messages in some order; of a message
being copied, the bytes so far lie behind it. -/
def Good (before : List UInt8) (s : Machine) : Prop :=
  match s.task with
  | .entered _ _ | .done =>
      ∃ order : List (List UInt8), order.Perm s.accepted ∧ Holds s.buf (before ++ order.flatten)
  | .checked data len =>
      ∃ order : List (List UInt8), (order ++ [message data len]).Perm s.accepted ∧
        Holds s.buf (before ++ order.flatten)
  | .copying data len wr i =>
      ∃ order : List (List UInt8), (order ++ [message data len]).Perm s.accepted ∧
        i ≤ len.toNat ∧ (before ++ order.flatten).length + len.toNat < s.buf.size.toNat ∧
        s.buf.wrOff.toNat =
          (s.buf.rdOff.toNat + (before ++ order.flatten).length) % s.buf.size.toNat ∧
        RingBuffer.Holds s.buf.buffer s.buf.size.toNat s.buf.rdOff.toNat wr.toNat
          (before ++ order.flatten ++ (message data len).take i)

/-- Too little is left of the stream: the messages accepted are longer than what the
buffer holds, or will hold when the task has stored `wr_off`. -/
def Bad (before : List UInt8) (s : Machine) : Prop :=
  WellFormed s.buf ∧
    match s.task with
    | .entered _ _ | .checked _ _ => False
    | .copying _ len wr i =>
        i ≤ len.toNat ∧ wr < s.buf.size ∧
          (RingBuffer.dist s.buf.size.toNat s.buf.rdOff.toNat wr.toNat + (len.toNat - i)) %
            s.buf.size.toNat < before.length + s.accepted.flatten.length
    | .done => (unread s.buf).length < before.length + s.accepted.flatten.length

variable {before : List UInt8} {s : Machine}

theorem length_of_perm {order accepted : List (List UInt8)} (h : order.Perm accepted) :
    order.flatten.length = accepted.flatten.length := h.flatten.length_eq

theorem Good.intact (h : Good before s) (hdone : s.task = .done) : Intact before s := by
  rw [Good, hdone] at h
  obtain ⟨order, hperm, hholds⟩ := h
  exact ⟨order, hperm, hholds.unread_eq⟩

theorem Bad.not_intact (h : Bad before s) (hdone : s.task = .done) : ¬ Intact before s := by
  obtain ⟨-, hshort⟩ := h
  rw [hdone] at hshort
  rintro ⟨order, hperm, hunread⟩
  rw [hunread, List.length_append, length_of_perm hperm] at hshort
  exact Nat.lt_irrefl _ hshort

theorem Good.wellFormed (h : Good before s) : WellFormed s.buf := by
  rw [Good] at h
  cases htask : s.task with
  | entered data len | done | checked data len =>
      rw [htask] at h
      obtain ⟨order, -, hholds⟩ := h
      exact hholds.wellFormed
  | copying data len wr i =>
      rw [htask] at h
      obtain ⟨order, -, -, -, hwr, hholds⟩ := h
      refine ⟨?_, UInt32.lt_iff_toNat_lt.mpr hholds.rd_lt⟩
      rw [UInt32.lt_iff_toNat_lt, hwr]
      exact Nat.mod_lt _ (Nat.zero_lt_of_lt hholds.rd_lt)

theorem take_message {data : ℕ → UInt8} {len : UInt32} {i : ℕ} (h : i < len.toNat) :
    (message data len).take (i + 1) = (message data len).take i ++ [data i] := by
  rw [List.take_succ_eq_append_getElem (by rwa [length_message])]
  simp [message]

theorem flatten_concat (order : List (List UInt8)) (bytes : List UInt8) :
    before ++ (order ++ [bytes]).flatten = before ++ order.flatten ++ bytes := by
  simp

/-! ### Undisturbed steps stay good -/

theorem good_irq (h : Good before s) {data : Option (ℕ → UInt8)} {len : UInt32}
    (he : Undisturbed s (.irq data len)) : Good before (irqStep data len s) := by
  rcases irqStep_cases h.wellFormed data len with
    ⟨hsame, -⟩ | ⟨bytes, -, hdata, haccepts, hholds, -, -, haccepted⟩
  · rw [hsame]
    exact h
  · rw [Good] at h ⊢
    rw [task_irqStep, haccepted]
    cases htask : s.task with
    | entered data' len' | done =>
        rw [htask] at h
        obtain ⟨order, hperm, hqueue⟩ := h
        refine ⟨order ++ [bytes], hperm.append_right _, ?_⟩
        rwa [flatten_concat, ← hqueue.unread_eq]
    | checked data' len' =>
        rw [htask] at h
        obtain ⟨order, hperm, hqueue⟩ := h
        refine ⟨order ++ [bytes], ?_, ?_⟩
        · -- the message of the task stays the last one
          rw [List.append_assoc]
          refine (List.Perm.append_left order List.perm_append_comm).trans ?_
          rw [← List.append_assoc]
          exact hperm.append_right _
        · rwa [flatten_concat, ← hqueue.unread_eq]
    | copying data' len' wr i =>
        rcases he data' len' wr i htask with hnone | hrefused
        · exact absurd hnone hdata
        · exact absurd haccepts hrefused

theorem good_entered (h : Good before s) {data : Option (ℕ → UInt8)} {len : UInt32}
    (htask : s.task = .entered data len) : Good before (taskStep s) := by
  rw [Good, htask] at h
  obtain ⟨order, hperm, hqueue⟩ := h
  rw [taskStep, htask]
  cases data with
  | none => exact ⟨order, hperm, hqueue⟩
  | some data =>
      dsimp only
      split_ifs
      · exact ⟨order, hperm, hqueue⟩
      · exact ⟨order, hperm, hqueue⟩
      · exact ⟨order, hperm, hqueue⟩
      · exact ⟨order, hperm.append_right _, hqueue⟩

/-- The read of `wr_off`, the message still fitting. -/
theorem good_checked (h : Good before s) (he : Undisturbed s .task) {data : ℕ → UInt8}
    {len : UInt32} (htask : s.task = .checked data len) : Good before (taskStep s) := by
  have hspace := he data len htask
  rw [UInt32.lt_iff_toNat_lt, toNat_spaceAvailable h.wellFormed] at hspace
  rw [Good, htask] at h
  obtain ⟨order, hperm, hqueue⟩ := h
  have hlt : (before ++ order.flatten).length < s.buf.size.toNat := hqueue.fits
  rw [hqueue.unread_eq] at hspace
  have hfits : (before ++ order.flatten).length + len.toNat < s.buf.size.toNat := by omega
  rw [taskStep, htask]
  refine ⟨order, hperm, Nat.zero_le _, hfits, hqueue.wr_eq, ?_⟩
  rw [List.take_zero, List.append_nil]
  exact hqueue

theorem good_copying (h : Good before s) {data : ℕ → UInt8} {len wr : UInt32} {i : ℕ}
    (htask : s.task = .copying data len wr i) : Good before (taskStep s) := by
  rw [Good, htask] at h
  obtain ⟨order, hperm, hi, hfits, hwr, hqueue⟩ := h
  have hlt := UInt32.lt_iff_toNat_lt.mpr hqueue.wr_lt
  rw [taskStep, htask]
  dsimp only
  split_ifs with hmore
  · -- one byte more lies behind the stream
    obtain ⟨hcells, hnext, -⟩ := copyByte_eq_put hlt s.buf.buffer (data i)
    have htaken : ((message data len).take i).length = i := by
      rw [List.length_take, length_message, Nat.min_eq_left hi]
    have hput := hqueue.put (data i) (by
      rw [List.length_append, htaken]
      omega)
    rw [← hcells, ← hnext, List.append_assoc, ← take_message hmore] at hput
    exact ⟨order, hperm, hmore, hfits, hwr, hput⟩
  · -- the store of `wr_off` appends the message
    have hall : (message data len).take i = message data len := by
      rw [List.take_of_length_le (by rw [length_message]; omega)]
    rw [hall, ← flatten_concat] at hqueue
    exact ⟨order ++ [message data len], hperm, hqueue⟩

theorem good_step (s : Machine) (e : Event) (h : Good before s) (he : Undisturbed s e) :
    Good before (step s e) := by
  cases e with
  | irq data len => exact good_irq h he
  | task =>
      cases htask : s.task with
      | entered data len => exact good_entered h htask
      | checked data len => exact good_checked h he htask
      | copying data len wr i => exact good_copying h htask
      | done =>
          rw [step, taskStep_done htask]
          exact h

/-! ### A disturbed step turns a good state bad, and bad it stays -/

/-- The message of the task counts among the accepted ones. -/
theorem length_accepted {order accepted : List (List UInt8)} {data : ℕ → UInt8} {len : UInt32}
    (h : (order ++ [message data len]).Perm accepted) :
    accepted.flatten.length = order.flatten.length + len.toNat := by
  rw [← length_of_perm h]
  simp

/-- The copy of `wr_off` is taken where the message does not fit: the offset that the task
will store lies a whole round back. -/
theorem bad_checked (h : Good before s) {data : ℕ → UInt8} {len : UInt32}
    (htask : s.task = .checked data len) (hspace : spaceAvailable s.buf < len) :
    Bad before (taskStep s) := by
  have hwell := h.wellFormed
  rw [UInt32.lt_iff_toNat_lt, toNat_spaceAvailable hwell] at hspace
  rw [Good, htask] at h
  obtain ⟨order, hperm, hqueue⟩ := h
  have htaken : taskStep s = { s with task := .copying data len s.buf.wrOff 0 } := by
    rw [taskStep, htask]
  rw [htaken]
  refine ⟨hwell, Nat.zero_le _, hwell.wrOff_lt, ?_⟩
  have hdist := RingBuffer.Holds.dist_eq hqueue
  have hlt := RingBuffer.Holds.fits hqueue
  rw [hqueue.unread_eq] at hspace
  have hround := Nat.mod_lt ((before ++ order.flatten).length + (len.toNat - 0))
    (Nat.zero_lt_of_lt hlt)
  rw [List.length_append] at hspace
  show (RingBuffer.dist s.buf.size.toNat s.buf.rdOff.toNat s.buf.wrOff.toNat + (len.toNat - 0)) %
    s.buf.size.toNat < before.length + s.accepted.flatten.length
  rw [hdist, length_accepted hperm]
  omega

/-- A message is accepted while the task copies: the task's offset leaves it out. -/
theorem bad_irq (h : Good before s) {data : Option (ℕ → UInt8)} {len : UInt32}
    {data' : ℕ → UInt8} {len' wr : UInt32} {i : ℕ} (htask : s.task = .copying data' len' wr i)
    (hdata : data ≠ none) (haccepts : Accepts s.buf len) : Bad before (irqStep data len s) := by
  rcases irqStep_cases h.wellFormed data len with
    ⟨-, hnone | hrefused⟩ | ⟨bytes, hbytes, -, -, hholds, hsize, hrd, haccepted⟩
  · exact absurd hnone hdata
  · exact absurd haccepts hrefused
  · rw [Good, htask] at h
    obtain ⟨order, hperm, hi, hfits, -, hqueue⟩ := h
    refine ⟨hholds.wellFormed, ?_⟩
    rw [task_irqStep, htask, hsize, hrd, haccepted]
    refine ⟨hi, UInt32.lt_iff_toNat_lt.mpr hqueue.wr_lt, ?_⟩
    have hbefore : (before ++ order.flatten ++ (message data' len').take i).length +
        (len'.toNat - i) = before.length + (order.flatten.length + len'.toNat) := by
      rw [List.length_append, List.length_append, List.length_take, length_message]
      omega
    rw [List.length_append] at hfits
    rw [hqueue.dist_eq, hbefore, Nat.mod_eq_of_lt (by omega), List.flatten_append,
      List.length_append, length_accepted hperm]
    simp only [List.flatten_cons, List.flatten_nil, List.append_nil]
    omega

theorem bad_of_disturbed (s : Machine) (e : Event) (h : Good before s) (he : ¬ Undisturbed s e) :
    Bad before (step s e) := by
  cases e with
  | task =>
      simp only [Undisturbed, not_forall, not_not] at he
      obtain ⟨data, len, htask, hspace⟩ := he
      exact bad_checked h htask hspace
  | irq data len =>
      simp only [Undisturbed, not_forall, not_or, not_not] at he
      obtain ⟨data', len', wr, i, htask, hdata, haccepts⟩ := he
      exact bad_irq h htask hdata haccepts

/-- More accepted bytes only widen the gap. -/
theorem bad_irq_of_bad (h : Bad before s) (data : Option (ℕ → UInt8)) (len : UInt32) :
    Bad before (irqStep data len s) := by
  obtain ⟨hwell, hshort⟩ := h
  rcases irqStep_cases hwell data len with
    ⟨hsame, -⟩ | ⟨bytes, -, -, -, hholds, hsize, hrd, haccepted⟩
  · rw [hsame]
    exact ⟨hwell, hshort⟩
  · refine ⟨hholds.wellFormed, ?_⟩
    rw [task_irqStep, haccepted]
    cases htask : s.task with
    | entered data' len' | checked data' len' =>
        rw [htask] at hshort
        exact hshort
    | copying data' len' wr i =>
        rw [htask] at hshort
        obtain ⟨hi, hwr, hlength⟩ := hshort
        rw [hsize, hrd]
        refine ⟨hi, hwr, hlength.trans_le ?_⟩
        simp
    | done =>
        rw [htask] at hshort
        dsimp only at hshort ⊢
        rw [hholds.unread_eq, List.length_append, List.flatten_append, List.length_append]
        simp only [List.flatten_cons, List.flatten_nil, List.append_nil]
        omega

/-- The offset that the task will store stays where it is. -/
theorem bad_copying (h : Bad before s) {data : ℕ → UInt8} {len wr : UInt32} {i : ℕ}
    (htask : s.task = .copying data len wr i) : Bad before (taskStep s) := by
  obtain ⟨hwell, hshort⟩ := h
  rw [htask] at hshort
  obtain ⟨hi, hwr, hlength⟩ := hshort
  have hrd := UInt32.lt_iff_toNat_lt.mp hwell.rdOff_lt
  have hlt := UInt32.lt_iff_toNat_lt.mp hwr
  rw [taskStep, htask]
  dsimp only
  split_ifs with hmore
  · -- a byte more, and one less to come
    obtain ⟨-, hnext, hnextlt⟩ := copyByte_eq_put hwr s.buf.buffer (data i)
    refine ⟨⟨hwell.wrOff_lt, hwell.rdOff_lt⟩, hmore, hnextlt, ?_⟩
    have hround : RingBuffer.dist s.buf.size.toNat s.buf.rdOff.toNat wr.toNat + 1 +
        (len.toNat - (i + 1)) =
        RingBuffer.dist s.buf.size.toNat s.buf.rdOff.toNat wr.toNat + (len.toNat - i) := by
      omega
    dsimp only
    rw [hnext, RingBuffer.put, RingBuffer.dist_next hrd hlt, Nat.mod_add_mod, hround]
    exact hlength
  · refine ⟨⟨hwr, hwell.rdOff_lt⟩, ?_⟩
    have hend : len.toNat - i = 0 := by omega
    rw [hend, Nat.add_zero, Nat.mod_eq_of_lt (RingBuffer.dist_lt hrd hlt)] at hlength
    show (unread { s.buf with wrOff := wr }).length < _
    rw [unread, RingBuffer.length_contents]
    exact hlength

theorem bad_step (s : Machine) (e : Event) (h : Bad before s) : Bad before (step s e) := by
  cases e with
  | irq data len => exact bad_irq_of_bad h data len
  | task =>
      cases htask : s.task with
      | entered data len | checked data len =>
          have hshort := h.2
          rw [htask] at hshort
          exact hshort.elim
      | copying data len wr i => exact bad_copying h htask
      | done =>
          rw [step, taskStep_done htask]
          exact h

/-! ### Runs -/

/-- Every interleaving of the task's steps with calls at interrupt level, in which the task
comes to its end: the stream is intact if and only if the task is undisturbed from its
read of `wr_off` on. -/
theorem intact_iff {buf : RttBufferUp} (h : WellFormed buf) (data : Option (ℕ → UInt8))
    (len : UInt32) (run : List Event)
    (hdone : (exec step (start buf data len) run).task = .done) :
    Intact (unread buf) (exec step (start buf data len) run) ↔
      EachStep step Undisturbed (start buf data len) run := by
  have hstart : Good (unread buf) (start buf data len) := by
    refine ⟨[], List.Perm.nil, ?_⟩
    rw [List.flatten_nil, List.append_nil]
    exact h.holds
  exact iff_eachStep good_step bad_of_disturbed bad_step hstart
    (fun hgood => hgood.intact hdone) (fun hbad => hbad.not_intact hdone)

/-- A line of the telemetry and a reply of the command handler. -/
def line : ℕ → UInt8 := fun i => [70, 66, 10].getD i 0
def reply : ℕ → UInt8 := fun i => [79, 75, 10].getD i 0

/-- A reply before the check is kept. -/
theorem intact_before_check :
    Intact (unread seggerRttUp)
      (exec step (start seggerRttUp (some line) 3)
        (.irq (some reply) 3 :: List.replicate 6 .task)) := by
  refine (intact_iff ⟨by decide, by decide⟩ (some line) 3 _ rfl).mpr ?_
  -- the first step of the task checks the space, the second one reads `wr_off`
  refine ⟨?_, ?_, ?_, ?_, ?_, ?_, ?_, trivial⟩
  · intro _ _ _ _ htask
    cases htask
  · intro _ _ htask
    cases htask
  · intro _ _ htask
    cases htask
    decide
  all_goals
    intro _ _ htask
    cases htask

/-- A reply between the read of `wr_off` and its store is lost. -/
def torn : List Event :=
  [.task, .task, .irq (some reply) 3, .task, .task, .task, .task]

theorem reply_lost :
    (exec step (start seggerRttUp (some line) 3) torn).task = .done ∧
      ¬ Intact (unread seggerRttUp) (exec step (start seggerRttUp (some line) 3) torn) := by
  refine ⟨rfl, ?_⟩
  rintro ⟨order, hperm, hunread⟩
  have hlength := congrArg List.length hunread
  rw [List.length_append, length_of_perm hperm] at hlength
  exact absurd hlength (by decide)

end NuedcFirmware.Modules.RttInterrupt
