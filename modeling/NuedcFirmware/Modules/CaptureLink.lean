import NuedcFirmware.Lib.Run
import NuedcFirmware.Modules.CaptureTool

/-!
The UART between the telemetry task and the capture tool.

The task sends its lines byte by byte. Between any two bytes the receive interrupt can send the
replies to a command. The read of the tool can time out at any time, also within a reply, and
returns what it has of a line. So a line can reach the tool in pieces, or with replies in the
middle of it.

The tool takes no sample that was not sent, takes none twice and keeps their order; and it loses at
most one line for each of these disturbances (`captured_samples`).
-/

namespace NuedcFirmware.Modules.TelemetryOutput.Capture

open NuedcFirmware.Lib ImuTelemetry

/-- The tool between two bytes: what `readline` has of a line, and what has been sampled. -/
structure Tool where
  buffer : List UInt8
  samples : List ImuSample

/-- Where `Telemetry_Tick` stands: before one of its lines, or at its end. -/
inductive Stage
  | idle
  | chassis (tsMs : UInt32)
  | line (tsMs : UInt32)
  | imu (tsMs : UInt32)
  deriving DecidableEq

/-- The firmware and the tool. Of a line that the task is sending, `pending` is still to be sent.
The last two fields are those of an observer: the samples of the IMU lines so far, and how often a
reply or a time-out came. -/
structure Link where
  telemetry : Telemetry
  stage : Stage
  pending : List UInt8
  tool : Tool
  printed : List ImuSample
  disturbed : ℕ

/-- The task calls `Telemetry_Tick`, or takes the next step of the call, with the memory as it is
then; the interrupt receives a byte, and while it sends its replies the read of the tool times out
before those of their bytes that are `late`; or the read times out between two bytes of the task. -/
inductive Event
  | tick (tsMs : UInt32)
  | task (p : Program)
  | rxByte (byte : UInt8) (buf : ℕ → UInt8) (late : ℕ → Bool)
  | timeout

section Step

variable (accelNorm : Binary64 → Binary64 → Binary64 → Binary64)

/-- The loop of the tool, for what `readline` returns. -/
def Tool.take (t : Tool) (raw : List UInt8) : Tool :=
  ⟨[], t.samples ++ (capture accelNorm raw).toList⟩

/-- A byte arrives. -/
def Tool.receive (t : Tool) (byte : UInt8) : Tool :=
  if byte = 10 then t.take accelNorm (t.buffer ++ [byte])
  else { t with buffer := t.buffer ++ [byte] }

/-- `readline` returns without a line feed; with nothing the loop goes on. -/
def Tool.timeout (t : Tool) : Tool := if t.buffer = [] then t else t.take accelNorm t.buffer

/-- Bytes arrive, and the read times out before those that are late. -/
def Tool.receiveAll (t : Tool) (late : ℕ → Bool) : List UInt8 → Tool
  | [] => t
  | byte :: bytes =>
      Tool.receiveAll ((if late 0 then t.timeout accelNorm else t).receive accelNorm byte)
        (fun k => late (k + 1)) bytes

variable (mul : Binary32 → Binary32 → Binary32) (b : Bindings)

/-- A status line is given to `BSP_Uart_Send`, if it is printed. -/
def Link.print (s : Link) (kind : StatusLine) (p : Program) (tsMs : UInt32) : Link :=
  match emit mul b p tsMs kind with
  | none => s
  | some text =>
      { s with
        pending := bspUartPrintf p.buf (encodeAscii text)
        printed :=
          if kind = .imu then s.printed ++ [readSample p.toMemory tsMs b.imu accelNorm]
          else s.printed }

/-- The task sends a byte, or goes on to the next line of `Telemetry_Tick`. -/
def Link.taskStep (s : Link) (p : Program) : Link :=
  match s.pending with
  | byte :: pending => { s with pending, tool := s.tool.receive accelNorm byte }
  | [] =>
      match s.stage with
      | .idle => s
      | .chassis tsMs =>
          if s.telemetry.enabled then
            { s.print accelNorm mul b .chassis p tsMs with stage := .line tsMs }
          else { s with stage := .imu tsMs }
      | .line tsMs =>
          if s.telemetry.rawLineEnabled then
            { s.print accelNorm mul b .line p tsMs with stage := .imu tsMs }
          else { s with stage := .imu tsMs }
      | .imu tsMs =>
          if s.telemetry.rawImuEnabled then
            { s.print accelNorm mul b .imu p tsMs with stage := .idle }
          else { s with stage := .idle }

/-- The replies of the interrupt are sent as a whole. -/
def Link.interrupt (s : Link) (byte : UInt8) (buf : ℕ → UInt8) (late : ℕ → Bool) : Link :=
  let (telemetry, replies) := telemetryOnRxByte byte s.telemetry
  let sent := replies.flatMap fun r => bspUartPrintf buf (encodeAscii r.toList)
  { s with
    telemetry
    tool := s.tool.receiveAll accelNorm late sent
    disturbed :=
      if replies = [] then s.disturbed
      else s.disturbed + 1 + (List.range sent.length).countP late }

def step (s : Link) : Event → Link
  | .tick tsMs =>
      if s.stage = .idle ∧ s.pending = [] then
        let (telemetry, due) := telemetryTick tsMs s.telemetry
        { s with telemetry, stage := if due = [] then .idle else .chassis tsMs }
      else s
  | .task p => s.taskStep accelNorm mul b p
  | .rxByte byte buf late => s.interrupt accelNorm byte buf late
  | .timeout => { s with tool := s.tool.timeout accelNorm, disturbed := s.disturbed + 1 }

end Step

/-- Nothing is being sent, and the tool has just been started. -/
structure Fresh (s : Link) : Prop where
  period : s.telemetry.periodMs < 2 ^ 16
  pending : s.pending = []
  tool : s.tool = ⟨[], []⟩
  printed : s.printed = []
  disturbed : s.disturbed = 0

/-- The memory that the task reads can be shown. -/
def Shows (mul : Binary32 → Binary32 → Binary32) (b : Bindings) (_ : Link) : Event → Prop
  | .task p => Showable mul b p
  | _ => True

/-! ### A line on its way -/

variable {accelNorm : Binary64 → Binary64 → Binary64 → Binary64}
  {mul : Binary32 → Binary32 → Binary32} {b : Bindings}

variable (accelNorm mul b) in
/-- What the tool has read of a line, what is still to be sent of it, and the sample that it will
give unless it is disturbed. -/
inductive Underway : List Char → List Char → Option ImuSample → Prop
  | idle : Underway [] [] none
  | other {name body p q} : Body (name :: body) → name ≠ 'I' → p ++ q = sent (name :: body) →
      q ≠ [] → Underway p q none
  | imu {m tsMs p q} : Showable mul b m →
      p ++ q = line (imuFields m.toMemory tsMs (telemetryBindImu b.imu)) → q ≠ [] →
      Underway p q (some (readSample m.toMemory tsMs b.imu accelNorm))
  | broken {name body p q} : Body (name :: body) → p ++ q <:+ name :: body ++ ['\r', '\n'] →
      q ≠ [] → Underway p q none

section Underway

variable {p q : List Char} {awaited : Option ImuSample}

theorem Underway.suffix (h : Underway accelNorm mul b p q awaited) :
    ∃ name body, Body (name :: body) ∧ p ++ q <:+ sent (name :: body) ∧ (q = [] → p = []) := by
  cases h with
  | idle => exact ⟨'S', [], by decide, List.nil_suffix, fun _ => rfl⟩
  | other hbody _ htext hne =>
      exact ⟨_, _, hbody, htext ▸ List.suffix_refl _, fun h => absurd h hne⟩
  | @imu m tsMs _ _ hshow htext hne =>
      obtain ⟨body, hbody, hline⟩ := imu_line tsMs hshow
      exact ⟨'I', body, hbody, htext ▸ hline ▸ List.suffix_refl _, fun h => absurd h hne⟩
  | broken hbody htext hne =>
      exact ⟨_, _, hbody, htext.trans (List.suffix_cons '$' _), fun h => absurd h hne⟩

theorem ascii_sent {body : List Char} (hbody : Body body) :
    ∀ c ∈ sent body, c.toNat < 128 := by
  intro c hc
  rw [sent, List.cons_append, List.mem_cons, List.mem_append, List.mem_cons,
    List.mem_singleton] at hc
  rcases hc with rfl | hc | rfl | rfl
  · decide
  · exact (hbody.inner c hc).ascii
  · decide
  · decide

/-- Before its last character a line has no line feed. -/
theorem lineFeed_notMem_sent {body : List Char} (hbody : Body body) :
    '\n' ∉ '$' :: body ++ ['\r'] := by
  intro hmem
  rw [List.cons_append, List.mem_cons, List.mem_append, List.mem_singleton] at hmem
  rcases hmem with hdollar | hinner | hreturn
  · exact absurd hdollar (by decide)
  · exact (hbody.inner '\n' hinner).lineFeed rfl
  · exact absurd hreturn (by decide)

theorem Underway.ascii (h : Underway accelNorm mul b p q awaited) :
    ∀ c ∈ p ++ q, c.toNat < 128 := by
  obtain ⟨name, body, hbody, hsuffix, -⟩ := h.suffix
  exact fun c hc => ascii_sent hbody c (hsuffix.subset hc)

/-- The line feed is the last to be sent. -/
theorem Underway.lineFeed (h : Underway accelNorm mul b p q awaited) :
    p = [] ∧ q = [] ∨ ∃ before, q = before ++ ['\n'] ∧ '\n' ∉ p ++ before := by
  obtain ⟨name, body, hbody, ⟨lead, hlead⟩, hempty⟩ := h.suffix
  rcases List.eq_nil_or_concat q with rfl | ⟨before, c, rfl⟩
  · exact Or.inl ⟨hempty rfl, rfl⟩
  · right
    have hsent : sent (name :: body) = '$' :: name :: body ++ ['\r'] ++ ['\n'] := by simp [sent]
    rw [hsent, List.concat_eq_append, ← List.append_assoc, ← List.append_assoc] at hlead
    obtain ⟨hbefore, hc⟩ := List.append_inj' hlead rfl
    refine ⟨before, by rw [List.concat_eq_append, hc], fun hmem => ?_⟩
    have hmem : '\n' ∈ '$' :: name :: body ++ ['\r'] := by
      rw [← hbefore, List.append_assoc]
      exact List.mem_append_right lead hmem
    exact lineFeed_notMem_sent hbody hmem

theorem dollar_notMem {name : Char} {body : List Char} (hbody : Body (name :: body)) {s : List Char}
    (hs : s <:+ name :: body ++ ['\r', '\n']) : '$' ∉ s := by
  intro hmem
  rcases List.mem_append.mp (hs.subset hmem) with hinner | hend
  · exact (hbody.inner _ hinner).dollar rfl
  · exact absurd hend (by decide)

variable (accelNorm) in
/-- A line of another kind is not accepted, wherever it is cut off. -/
theorem accept_of_other {name : Char} {body : List Char} (hname : name ≠ 'I')
    (htext : p ++ q = sent (name :: body)) (behind : List Char)
    (hbehind : behind.head? ≠ some 'I') : accept accelNorm (p ++ behind) = none ∨ p = [] := by
  cases p with
  | nil => exact Or.inr rfl
  | cons c p =>
      obtain ⟨rfl, hrest⟩ := List.cons.inj htext
      refine Or.inl (accept_eq_none_of_name (List.not_mem_nil : '$' ∉ []) ?_)
      cases p with
      | nil => exact hbehind
      | cons c p =>
          obtain ⟨rfl, -⟩ := List.cons.inj hrest
          exact fun h => hname (Option.some.inj h)

/-- The sample of a line that reaches the tool whole. -/
theorem accept_line {m : Program} (h : Showable mul b m) (tsMs : UInt32) :
    parseImuLine accelNorm
        ([','].intercalate (imuFields m.toMemory tsMs (telemetryBindImu b.imu))) =
      some (readSample m.toMemory tsMs b.imu accelNorm) :=
  parseImuLine_intercalate (fun a ha => (h.imu a ha).finite) accelNorm

/-- What has been read so far gives the sample, or none. -/
theorem Underway.accept_part (h : Underway accelNorm mul b p q awaited) :
    accept accelNorm p = none ∨ accept accelNorm p = awaited := by
  cases h with
  | idle => exact Or.inl (accept_eq_none_of_notMem List.not_mem_nil)
  | other _ hname htext _ =>
      left
      rcases accept_of_other accelNorm hname htext [] (by simp) with hnone | rfl
      · rwa [List.append_nil] at hnone
      · exact accept_eq_none_of_notMem List.not_mem_nil
  | @imu m tsMs _ _ hshow htext _ =>
      have hprefix := accept_of_prefix accelNorm (imuFields_of_showable hshow tsMs)
        ⟨q, htext⟩
      rwa [accept_line hshow] at hprefix
  | broken hbody htext _ =>
      exact Or.inl (accept_eq_none_of_notMem fun hmem =>
        dollar_notMem hbody htext (List.mem_append_left q hmem))

/-- A line of which the tool has read a piece is broken when the tool begins anew. -/
theorem Underway.break (h : Underway accelNorm mul b p q awaited) (hne : p ≠ []) :
    Underway accelNorm mul b [] q none := by
  have htail : ∀ {name body}, p ++ q = sent (name :: body) →
      q <:+ name :: body ++ ['\r', '\n'] := by
    intro name body htext
    cases p with
    | nil => exact absurd rfl hne
    | cons c p => exact ⟨p, (List.cons.inj htext).2⟩
  cases h with
  | idle => exact absurd rfl hne
  | other hbody _ htext hq => exact .broken hbody (htail htext) hq
  | @imu m tsMs _ _ hshow htext hq =>
      obtain ⟨body, hbody, hline⟩ := imu_line tsMs hshow
      exact .broken hbody (htail (htext.trans hline)) hq
  | broken hbody htext hq => exact .broken hbody ((List.suffix_append p q).trans htext) hq

/-- A reply after what the tool has read makes a line that it does not accept, wherever the reply
is cut off. -/
theorem Underway.accept_reply (h : Underway accelNorm mul b p q awaited) {behind : List Char}
    (hhead : behind.head? ≠ some 'I') : accept accelNorm (p ++ '$' :: behind) = none := by
  have halone : accept accelNorm ([] ++ '$' :: behind) = none :=
    accept_eq_none_of_name List.not_mem_nil hhead
  cases h with
  | idle => exact halone
  | other _ hname htext _ =>
      rcases accept_of_other accelNorm hname htext ('$' :: behind) (by simp) with hnone | rfl
      · exact hnone
      · exact halone
  | @imu m tsMs _ _ hshow htext hq =>
      by_cases hempty : p = []
      · rw [hempty]
        exact halone
      · refine accept_of_reply (imuFields_of_showable hshow tsMs) ⟨q, htext⟩ hempty ?_ _
        intro hall
        rw [← htext] at hall
        exact hq (List.append_right_eq_self.mp hall.symm)
  | broken hbody htext _ =>
      exact accept_eq_none_of_name
        (fun hmem => dollar_notMem hbody htext (List.mem_append_left q hmem)) hhead

/-- A character is sent. -/
theorem Underway.send {c : Char} (h : Underway accelNorm mul b p (c :: q) awaited)
    (hc : c ≠ '\n') : Underway accelNorm mul b (p ++ [c]) q awaited := by
  have hq : q ≠ [] := by
    rintro rfl
    rcases h.lineFeed with ⟨-, hnil⟩ | ⟨before, hbefore, -⟩
    · exact List.cons_ne_nil _ _ hnil
    · have hlast := congrArg List.getLast? hbefore
      rw [List.getLast?_concat, List.getLast?_singleton] at hlast
      exact hc (Option.some.inj hlast)
  have hmove : p ++ [c] ++ q = p ++ c :: q := by simp
  cases h with
  | other hbody hname htext _ => exact .other hbody hname (hmove.trans htext) hq
  | imu hshow htext _ => exact .imu hshow (hmove.trans htext) hq
  | broken hbody htext _ => exact .broken hbody (hmove ▸ htext) hq

/-- With the line feed the tool has the line. -/
theorem Underway.accept_end (h : Underway accelNorm mul b p ['\n'] awaited) :
    accept accelNorm (p ++ ['\n']) = awaited := by
  cases h with
  | other _ hname htext _ =>
      rcases accept_of_other accelNorm hname htext ['\n'] (by decide) with hnone | rfl
      · exact hnone
      · exact absurd (List.cons.inj htext).1 (by decide)
  | @imu m tsMs _ _ hshow htext _ =>
      rw [htext, line, accept_of_whole (imuFields_of_showable hshow tsMs) (List.prefix_refl _),
        accept_line hshow]
  | broken hbody htext _ => exact accept_eq_none_of_notMem (dollar_notMem hbody htext)

theorem Underway.of_sent (h : Underway accelNorm mul b p [] awaited) : p = [] ∧ awaited = none := by
  cases h with
  | idle => exact ⟨rfl, rfl⟩
  | other _ _ _ hne => exact absurd rfl hne
  | imu _ _ hne => exact absurd rfl hne
  | broken _ _ hne => exact absurd rfl hne

/-- A line that is printed. -/
theorem underway_emit {m : Program} (h : Showable mul b m) {kind : StatusLine} {tsMs : UInt32}
    {text : List Char} (hemit : emit mul b m tsMs kind = some text) :
    Underway accelNorm mul b [] text
      (if kind = .imu then some (readSample m.toMemory tsMs b.imu accelNorm) else none) := by
  obtain ⟨name, body, hbody, htext, hkind⟩ := emit_eq_some h hemit
  have hne : text ≠ [] := by
    rw [htext]
    exact List.cons_ne_nil _ _
  split_ifs with himu
  · subst himu
    simp only [emit, emitImu, Option.ite_none_left_eq_some, Option.some.injEq] at hemit
    exact .imu h hemit.2.symm hne
  · exact .other hbody (fun h => himu (hkind.mp h)) htext hne

end Underway

/-! ### Bytes -/

theorem ofNat_eq_lineFeed {c : Char} (h : c.toNat < 128) : UInt8.ofNat c.toNat = 10 ↔ c = '\n' := by
  constructor
  · intro heq
    have hnat : c.toNat % 2 ^ 8 = 10 := by
      rw [← UInt8.toNat_ofNat', heq]
      rfl
    have hc : c.toNat = 10 := by omega
    rw [← Char.ofNat_toNat c, hc]
  · rintro rfl
    rfl

/-- Bytes in two parts. -/
theorem receiveAll_append (t : Tool) (late : ℕ → Bool) (first rest : List UInt8) :
    t.receiveAll accelNorm late (first ++ rest) =
      (t.receiveAll accelNorm late first).receiveAll accelNorm
        (fun k => late (k + first.length)) rest := by
  induction first generalizing t late with
  | nil => rfl
  | cons byte first ih => exact ih _ _

/-- What stands in the buffer is not accepted, nor with a part of what is still to come. -/
structure Refused (accelNorm : Binary64 → Binary64 → Binary64 → Binary64) (t : Tool)
    (s rest : List Char) : Prop where
  buffer : t.buffer = encodeAscii s
  ascii : ∀ c ∈ s, c.toNat < 128
  refused : ∀ v, v <+: rest → accept accelNorm (s ++ v) = none

section Refused

variable {t : Tool} {s rest : List Char}

theorem take_refused (hbuffer : t.buffer = encodeAscii s) (hascii : ∀ c ∈ s, c.toNat < 128)
    (hnone : accept accelNorm s = none) :
    t.take accelNorm t.buffer = ⟨[], t.samples⟩ := by
  rw [Tool.take, hbuffer, capture_eq_accept hascii, hnone, Option.toList_none, List.append_nil]

/-- A time-out then takes nothing, and without a dollar sign to come nothing will be taken. -/
theorem Refused.timeout (h : Refused accelNorm t s rest) (hdollar : '$' ∉ rest) (late : Bool) :
    ∃ s', Refused accelNorm (if late then t.timeout accelNorm else t) s' rest ∧
      (if late then t.timeout accelNorm else t).samples = t.samples := by
  cases late with
  | false => exact ⟨s, h, rfl⟩
  | true =>
      have hnone : accept accelNorm s = none :=
        (congrArg _ (List.append_nil s).symm).trans (h.refused [] List.nil_prefix)
      have htool : t.timeout accelNorm = ⟨[], t.samples⟩ := by
        rw [Tool.timeout]
        split_ifs with hempty
        · rw [← hempty]
        · exact take_refused h.buffer h.ascii hnone
      rw [if_pos rfl, htool]
      refine ⟨[], ⟨rfl, fun c hc => absurd hc List.not_mem_nil, fun v hv => ?_⟩, rfl⟩
      exact accept_eq_none_of_notMem fun hmem => hdollar (hv.subset hmem)

theorem Refused.receive {c : Char} (h : Refused accelNorm t s (c :: rest)) (hc : c.toNat < 128)
    (hfeed : c ≠ '\n') :
    Refused accelNorm (t.receive accelNorm (UInt8.ofNat c.toNat)) (s ++ [c]) rest ∧
      (t.receive accelNorm (UInt8.ofNat c.toNat)).samples = t.samples := by
  rw [Tool.receive, if_neg fun heq => hfeed ((ofNat_eq_lineFeed hc).mp heq)]
  refine ⟨⟨?_, ?_, fun v hv => ?_⟩, rfl⟩
  · show t.buffer ++ [UInt8.ofNat c.toNat] = encodeAscii (s ++ [c])
    rw [h.buffer, encodeAscii, encodeAscii, List.map_append]
    rfl
  · intro d hd
    rcases List.mem_append.mp hd with hd | hd
    · exact h.ascii d hd
    · exact List.mem_singleton.mp hd ▸ hc
  · rw [List.append_assoc, List.singleton_append]
    exact h.refused (c :: v) ((List.prefix_cons_inj c).mpr hv)

/-- Up to the next line feed, nothing is taken, whenever the reads time out. -/
theorem Refused.receiveAll (h : Refused accelNorm t s (rest ++ ['\n'])) (late : ℕ → Bool)
    (hascii : ∀ c ∈ rest, c.toNat < 128) (hfeed : '\n' ∉ rest) (hdollar : '$' ∉ rest) :
    t.receiveAll accelNorm late (encodeAscii (rest ++ ['\n'])) = ⟨[], t.samples⟩ := by
  induction rest generalizing t s late with
  | nil =>
      obtain ⟨s', h, hsamples⟩ := h.timeout (by simp) (late 0)
      rw [← hsamples]
      have hline : accept accelNorm (s' ++ ['\n']) = none := h.refused _ (List.prefix_refl _)
      have hbuffer : (if late 0 then t.timeout accelNorm else t).buffer ++ [10] =
          encodeAscii (s' ++ ['\n']) := by
        rw [h.buffer, encodeAscii, encodeAscii, List.map_append]
        rfl
      show Tool.receive accelNorm (if late 0 then t.timeout accelNorm else t) 10 = _
      rw [Tool.receive, if_pos rfl, hbuffer, Tool.take, capture_eq_accept ?_, hline,
        Option.toList_none, List.append_nil]
      intro c hc
      rcases List.mem_append.mp hc with hc | hc
      · exact h.ascii c hc
      · rw [List.mem_singleton.mp hc]
        decide
  | cons c rest ih =>
      rw [List.forall_mem_cons] at hascii
      rw [List.mem_cons, not_or] at hfeed
      have hnot : '$' ∉ c :: rest ++ ['\n'] := by
        simpa using hdollar
      obtain ⟨s', h, hsamples⟩ := h.timeout hnot (late 0)
      obtain ⟨h, hkept⟩ := h.receive hascii.1 (Ne.symm hfeed.1)
      rw [List.mem_cons, not_or] at hdollar
      rw [← hsamples, ← hkept]
      exact ih h _ hascii.2 hfeed.2 hdollar.2

end Refused

theorem bspUartPrintf_sent {body : List Char} (h : Body body) (buf : ℕ → UInt8) :
    bspUartPrintf buf (encodeAscii (sent body)) = encodeAscii (sent body) := by
  apply bspUartPrintf_of_length_le
  have := h.short
  simp only [encodeAscii, sent, List.length_map, List.length_append, List.length_cons,
    List.length_nil]
  omega

/-- A time-out takes what has been read of a line, if anything. -/
theorem Underway.timeout (h : Underway accelNorm mul b p q awaited) {t : Tool}
    (ht : t.buffer = encodeAscii p) (late : Bool) :
    ∃ p' taken, (taken = none ∨ taken = awaited) ∧ (p = [] → taken = none) ∧ (p' = p ∨ p' = []) ∧
      (if late then t.timeout accelNorm else t) = ⟨encodeAscii p', t.samples ++ taken.toList⟩ := by
  have hsame : t = ⟨encodeAscii p, t.samples ++ (none : Option ImuSample).toList⟩ := by
    rw [← ht, Option.toList_none, List.append_nil]
  cases late with
  | false => exact ⟨p, none, Or.inl rfl, fun _ => rfl, Or.inl rfl, hsame⟩
  | true =>
      rw [if_pos rfl, Tool.timeout]
      split_ifs with hempty
      · exact ⟨p, none, Or.inl rfl, fun _ => rfl, Or.inl rfl, hsame⟩
      · refine ⟨[], accept accelNorm p, h.accept_part, ?_, Or.inr rfl, ?_⟩
        · rintro rfl
          exact absurd ht hempty
        · rw [Tool.take, ht, capture_eq_accept fun c hc => h.ascii c (List.mem_append_left q hc)]
          rfl

/-- A reply leaves nothing of what the tool has read, which is only taken when the read times out
before it; it is no sample itself, wherever it is cut off. -/
theorem receiveAll_reply (h : Underway accelNorm mul b p q awaited) {t : Tool}
    (ht : t.buffer = encodeAscii p) {name : Char} {body : List Char} (hname : name ≠ 'I')
    (hbody : Body (name :: body)) (late : ℕ → Bool) :
    ∃ taken, (taken = none ∨ taken = awaited) ∧ (p = [] → taken = none) ∧
      t.receiveAll accelNorm late (encodeAscii (sent (name :: body))) =
        ⟨[], t.samples ++ taken.toList⟩ := by
  obtain ⟨p', taken, htaken, hnothing, hp', htool⟩ := h.timeout ht (late 0)
  refine ⟨taken, htaken, hnothing, ?_⟩
  have hascii := ascii_sent hbody
  have hsent : sent (name :: body) = '$' :: (name :: body ++ ['\r'] ++ ['\n']) := by simp [sent]
  have hrest : ∀ c ∈ name :: body ++ ['\r'], c.toNat < 128 := fun c hc =>
    hascii c (hsent ▸ List.mem_cons_of_mem _ (List.mem_append_left _ hc))
  have hline : ∀ c ∈ p' ++ ['$'], c.toNat < 128 := by
    intro c hc
    rcases List.mem_append.mp hc with hc | hc
    · rcases hp' with rfl | rfl
      · exact h.ascii c (List.mem_append_left q hc)
      · cases hc
    · rw [List.mem_singleton.mp hc]
      decide
  have hfeed : '\n' ∉ name :: body ++ ['\r'] := fun hmem =>
    lineFeed_notMem_sent hbody (List.mem_cons_of_mem '$' hmem)
  have hdollar : '$' ∉ name :: body ++ ['\r'] :=
    dollar_notMem hbody ⟨[], by simp⟩ ∘ List.mem_append_left ['\n']
  -- what has been read and the beginning of the reply are refused
  have hrefused : Refused accelNorm ⟨encodeAscii (p' ++ ['$']), t.samples ++ taken.toList⟩
      (p' ++ ['$']) (name :: body ++ ['\r'] ++ ['\n']) := by
    refine ⟨rfl, hline, fun v hv => ?_⟩
    have hhead : v.head? ≠ some 'I' := by
      cases v with
      | nil => simp
      | cons c v =>
          obtain ⟨rfl, -⟩ := List.cons_prefix_cons.mp hv
          exact fun heq => hname (Option.some.inj heq)
    rw [List.append_assoc, List.singleton_append]
    rcases hp' with rfl | rfl
    · exact h.accept_reply hhead
    · exact accept_eq_none_of_name List.not_mem_nil hhead
  have hfirst : Tool.receive accelNorm (if late 0 then t.timeout accelNorm else t) 36 =
      ⟨encodeAscii (p' ++ ['$']), t.samples ++ taken.toList⟩ := by
    rw [htool, Tool.receive, if_neg (by decide), encodeAscii, encodeAscii, List.map_append]
    rfl
  rw [hsent]
  show Tool.receiveAll accelNorm
    (Tool.receive accelNorm (if late 0 then t.timeout accelNorm else t) 36) _ _ = _
  rw [hfirst]
  exact hrefused.receiveAll _ hrest hfeed hdollar

/-- The replies leave nothing of what the tool has read, and are no samples. -/
theorem receiveAll_replies {p q : List Char} {awaited : Option ImuSample} {r : String}
    {replies : List String} (hreplies : ∀ r' ∈ r :: replies, Reply r') (buf : ℕ → UInt8)
    (late : ℕ → Bool) {t : Tool} (h : Underway accelNorm mul b p q awaited)
    (ht : t.buffer = encodeAscii p) :
    ∃ taken, (taken = none ∨ taken = awaited) ∧ (p = [] → taken = none) ∧
      t.receiveAll accelNorm late
          ((r :: replies).flatMap fun r => bspUartPrintf buf (encodeAscii r.toList)) =
        ⟨[], t.samples ++ taken.toList⟩ := by
  induction replies generalizing r p awaited t late with
  | nil =>
      obtain ⟨name, body, hname, hbody, htext⟩ := hreplies r List.mem_cons_self
      rw [List.flatMap_singleton, htext, bspUartPrintf_sent hbody]
      exact receiveAll_reply h ht hname hbody late
  | cons next replies ih =>
      rw [List.forall_mem_cons] at hreplies
      obtain ⟨⟨name, body, hname, hbody, htext⟩, hreplies⟩ := hreplies
      obtain ⟨taken, htaken, hnothing, hfirst⟩ := receiveAll_reply h ht hname hbody late
      refine ⟨taken, htaken, hnothing, ?_⟩
      -- whatever was there, the line goes on from an empty buffer
      obtain ⟨awaited', hrest⟩ : ∃ awaited', Underway accelNorm mul b [] q awaited' := by
        by_cases hp : p = []
        · exact ⟨awaited, hp ▸ h⟩
        · exact ⟨none, h.break hp⟩
      rw [List.flatMap_cons, htext, bspUartPrintf_sent hbody, receiveAll_append, hfirst]
      obtain ⟨taken', -, hnone, hothers⟩ := ih hreplies
        (fun k => late (k + (encodeAscii (sent (name :: body))).length)) hrest
        (t := ⟨[], t.samples ++ taken.toList⟩) rfl
      rw [hothers, hnone rfl, Option.toList_none, List.append_nil]

/-! ### The period -/

theorem periodMs_runCommand {t : Telemetry} (h : t.periodMs < 2 ^ 16) (c : Command) :
    (runCommand t c).1.periodMs < 2 ^ 16 := by
  cases c with
  | rate arg =>
      simp only [runCommand]
      split
      · rename_i hrange
        have hle : 1000 / atoi arg ≤ 1000 := Int.ediv_le_self _ (by decide)
        simp only
        split_ifs <;> omega
      · exact h
  | duty args =>
      simp only [runCommand, handleDuty_fst]
      cases dutyArguments args <;> exact h
  | _ => exact h

theorem periodMs_telemetryOnRxByte {t : Telemetry} (h : t.periodMs < 2 ^ 16) (byte : UInt8) :
    (telemetryOnRxByte byte t).1.periodMs < 2 ^ 16 := by
  rw [telemetryOnRxByte]
  split_ifs
  · exact h
  · exact h
  · exact periodMs_runCommand h _
  · exact h
  · exact h
  · exact h

theorem periodMs_telemetryTick {t : Telemetry} (h : t.periodMs < 2 ^ 16) (tsMs : UInt32) :
    (telemetryTick tsMs t).1.periodMs < 2 ^ 16 := by
  rw [telemetryTick]
  split_ifs <;> exact h

/-! ### The link -/

variable (accelNorm mul b) in
/-- A line is underway, and of the lines before it the tool has the samples but for one for each
disturbance. -/
structure Kept (s : Link) (p q : List Char) (awaited : Option ImuSample)
    (earlier : List ImuSample) : Prop where
  buffer : s.tool.buffer = encodeAscii p
  pending : s.pending = encodeAscii q
  underway : Underway accelNorm mul b p q awaited
  printed : s.printed = earlier ++ awaited.toList
  samples : s.tool.samples.Sublist earlier
  count : earlier.length ≤ s.tool.samples.length + s.disturbed
  period : s.telemetry.periodMs < 2 ^ 16

variable (accelNorm mul b) in
def Inv (s : Link) : Prop := ∃ p q awaited earlier, Kept accelNorm mul b s p q awaited earlier

section Kept

variable {s : Link} {p q : List Char} {awaited : Option ImuSample} {earlier : List ImuSample}

theorem Kept.stage (h : Kept accelNorm mul b s p q awaited earlier) (stage : Stage) :
    Kept accelNorm mul b { s with stage } p q awaited earlier :=
  ⟨h.buffer, h.pending, h.underway, h.printed, h.samples, h.count, h.period⟩

theorem Kept.telemetry (h : Kept accelNorm mul b s p q awaited earlier) {telemetry : Telemetry}
    (hperiod : telemetry.periodMs < 2 ^ 16) :
    Kept accelNorm mul b { s with telemetry } p q awaited earlier :=
  ⟨h.buffer, h.pending, h.underway, h.printed, h.samples, h.count, hperiod⟩

/-- The line that was underway is lost or taken. -/
theorem Kept.lose (h : Kept accelNorm mul b s p q awaited earlier) {taken : Option ImuSample}
    (htaken : taken = none ∨ taken = awaited) :
    (s.tool.samples ++ taken.toList).Sublist s.printed ∧
      s.printed.length ≤ (s.tool.samples ++ taken.toList).length + (s.disturbed + 1) := by
  have hone : awaited.toList.length ≤ 1 := Option.length_toList_le
  have hcount := h.count
  rw [h.printed, List.length_append, List.length_append]
  rcases htaken with rfl | rfl
  · rw [Option.toList_none, List.append_nil]
    exact ⟨h.samples.trans (List.sublist_append_left _ _), by omega⟩
  · exact ⟨h.samples.append (List.Sublist.refl _), by omega⟩

theorem Kept.timeout (h : Kept accelNorm mul b s p q awaited earlier) :
    Inv accelNorm mul b (step accelNorm mul b s .timeout) := by
  by_cases hp : p = []
  · -- with nothing read there is nothing to lose
    have hbuffer : s.tool.buffer = [] := by
      rw [h.buffer, hp]
      rfl
    have htool : s.tool.timeout accelNorm = s.tool := if_pos hbuffer
    refine ⟨p, q, awaited, earlier, ?_, h.pending, h.underway, h.printed, ?_, ?_, h.period⟩
    · exact (congrArg Tool.buffer htool).trans h.buffer
    · show (s.tool.timeout accelNorm).samples.Sublist earlier
      rw [htool]
      exact h.samples
    · show earlier.length ≤ (s.tool.timeout accelNorm).samples.length + (s.disturbed + 1)
      rw [htool]
      exact h.count.trans (Nat.le_succ _)
  · have hbuffer : s.tool.buffer ≠ [] := by
      rw [h.buffer]
      exact fun hnil => hp (List.map_eq_nil_iff.mp hnil)
    have htool : s.tool.timeout accelNorm =
        ⟨[], s.tool.samples ++ (accept accelNorm p).toList⟩ := by
      rw [Tool.timeout, if_neg hbuffer, Tool.take, h.buffer, capture_eq_accept fun c hc =>
        h.underway.ascii c (List.mem_append_left q hc)]
    obtain ⟨hsublist, hcount⟩ := h.lose h.underway.accept_part
    refine ⟨[], q, none, s.printed, ?_, h.pending, h.underway.break hp, ?_, ?_, ?_, h.period⟩
    · exact congrArg Tool.buffer htool
    · exact (List.append_nil _).symm
    · show (s.tool.timeout accelNorm).samples.Sublist s.printed
      rw [htool]
      exact hsublist
    · show s.printed.length ≤ (s.tool.timeout accelNorm).samples.length + (s.disturbed + 1)
      rw [htool]
      exact hcount

theorem Kept.rxByte (h : Kept accelNorm mul b s p q awaited earlier) (byte : UInt8)
    (buf : ℕ → UInt8) (late : ℕ → Bool) :
    Inv accelNorm mul b (step accelNorm mul b s (.rxByte byte buf late)) := by
  have hreplies := reply_telemetryOnRxByte byte s.telemetry h.period
  have hperiod := periodMs_telemetryOnRxByte h.period byte
  rw [step, Link.interrupt]
  generalize telemetryOnRxByte byte s.telemetry = reaction at hreplies hperiod ⊢
  obtain ⟨telemetry, replies⟩ := reaction
  cases replies with
  | nil => exact ⟨p, q, awaited, earlier, h.telemetry hperiod⟩
  | cons r replies =>
      obtain ⟨taken, htaken, hnothing, htool⟩ :=
        receiveAll_replies hreplies buf late h.underway h.buffer
      dsimp only
      rw [htool, if_neg (List.cons_ne_nil _ _)]
      by_cases hp : p = []
      · subst hp
        rw [hnothing rfl, Option.toList_none, List.append_nil]
        exact ⟨[], q, awaited, earlier, rfl, h.pending, h.underway, h.printed, h.samples,
          h.count.trans (by simp only; omega), hperiod⟩
      · obtain ⟨hsublist, hcount⟩ := h.lose htaken
        exact ⟨[], q, none, s.printed, rfl, h.pending, h.underway.break hp,
          (List.append_nil _).symm, hsublist, hcount.trans (by simp only; omega), hperiod⟩

theorem Kept.send {c : Char} (h : Kept accelNorm mul b s p (c :: q) awaited earlier) :
    Inv accelNorm mul b
      { s with
        pending := encodeAscii q
        tool := s.tool.receive accelNorm (UInt8.ofNat c.toNat) } := by
  have hc := h.underway.ascii c (List.mem_append_right p List.mem_cons_self)
  have hbuffer : s.tool.buffer ++ [UInt8.ofNat c.toNat] = encodeAscii (p ++ [c]) := by
    rw [h.buffer, encodeAscii, encodeAscii, List.map_append]
    rfl
  by_cases hfeed : c = '\n'
  · -- the line ends, and is taken if it was awaited
    subst hfeed
    obtain rfl : q = [] := by
      rcases h.underway.lineFeed with ⟨-, hnil⟩ | ⟨before, hbefore, hnot⟩
      · exact absurd hnil (List.cons_ne_nil _ _)
      · cases before with
        | nil => exact (List.cons.inj hbefore).2
        | cons d before =>
            rw [← (List.cons.inj hbefore).1] at hnot
            exact absurd (List.mem_append_right p List.mem_cons_self) hnot
    have htool : s.tool.receive accelNorm (UInt8.ofNat '\n'.toNat) =
        ⟨[], s.tool.samples ++ awaited.toList⟩ := by
      have hten : UInt8.ofNat '\n'.toNat = 10 := rfl
      rw [Tool.receive, if_pos hten, Tool.take, hbuffer, capture_eq_accept h.underway.ascii,
        h.underway.accept_end]
    rw [htool]
    refine ⟨[], [], none, s.printed, rfl, rfl, .idle, (List.append_nil _).symm, ?_, ?_, h.period⟩
    · rw [h.printed]
      exact h.samples.append (List.Sublist.refl _)
    · show s.printed.length ≤ (s.tool.samples ++ awaited.toList).length + s.disturbed
      rw [h.printed, List.length_append, List.length_append]
      have := h.count
      omega
  · have htool : s.tool.receive accelNorm (UInt8.ofNat c.toNat) =
        { s.tool with buffer := encodeAscii (p ++ [c]) } := by
      rw [Tool.receive, if_neg (fun heq => hfeed ((ofNat_eq_lineFeed hc).mp heq)), hbuffer]
    rw [htool]
    exact ⟨p ++ [c], q, awaited, earlier, rfl, rfl, h.underway.send hfeed, h.printed, h.samples,
      h.count, h.period⟩

theorem Kept.print (h : Kept accelNorm mul b s p [] awaited earlier) {m : Program}
    (hshow : Showable mul b m) (kind : StatusLine) (tsMs : UInt32) (stage : Stage) :
    Inv accelNorm mul b { s.print accelNorm mul b kind m tsMs with stage } := by
  obtain ⟨rfl, rfl⟩ := h.underway.of_sent
  rw [Link.print]
  cases hemit : emit mul b m tsMs kind with
  | none => exact ⟨[], [], none, earlier, h.stage stage⟩
  | some text =>
      obtain ⟨name, body, hbody, rfl, -⟩ := emit_eq_some hshow hemit
      refine ⟨[], sent (name :: body), _, earlier, h.buffer, bspUartPrintf_sent hbody m.buf,
        underway_emit hshow hemit, ?_, h.samples, h.count, h.period⟩
      have hprinted : s.printed = earlier := h.printed.trans (List.append_nil _)
      simp only
      split_ifs
      · rw [hprinted, Option.toList_some]
      · rw [hprinted, Option.toList_none, List.append_nil]

theorem inv_ite {c : Prop} [Decidable c] {s s' : Link} (h : Inv accelNorm mul b s)
    (h' : Inv accelNorm mul b s') : Inv accelNorm mul b (if c then s else s') := by
  split_ifs
  · exact h
  · exact h'

theorem Kept.task (h : Kept accelNorm mul b s p q awaited earlier) {m : Program}
    (hshow : Showable mul b m) : Inv accelNorm mul b (step accelNorm mul b s (.task m)) := by
  obtain ⟨telemetry, stage, pending, tool, printed, disturbed⟩ := s
  obtain rfl : pending = encodeAscii q := h.pending
  cases q with
  | cons c q => exact h.send
  | nil =>
      cases stage with
      | idle => exact ⟨p, [], awaited, earlier, h⟩
      | chassis tsMs =>
          exact inv_ite (h.print hshow .chassis tsMs (.line tsMs))
            ⟨p, [], awaited, earlier, h.stage (.imu tsMs)⟩
      | line tsMs =>
          exact inv_ite (h.print hshow .line tsMs (.imu tsMs))
            ⟨p, [], awaited, earlier, h.stage (.imu tsMs)⟩
      | imu tsMs =>
          exact inv_ite (h.print hshow .imu tsMs .idle)
            ⟨p, [], awaited, earlier, h.stage .idle⟩

end Kept

theorem inv_step (s : Link) (e : Event) (h : Inv accelNorm mul b s) (he : Shows mul b s e) :
    Inv accelNorm mul b (step accelNorm mul b s e) := by
  obtain ⟨p, q, awaited, earlier, h⟩ := h
  cases e with
  | tick tsMs =>
      rw [step]
      split_ifs
      · exact ⟨p, q, awaited, earlier, (h.telemetry (periodMs_telemetryTick h.period tsMs)).stage _⟩
      · exact ⟨p, q, awaited, earlier, h⟩
  | task m => exact h.task he
  | rxByte byte buf late => exact h.rxByte byte buf late
  | timeout => exact h.timeout

theorem inv_fresh {s : Link} (h : Fresh s) : Inv accelNorm mul b s := by
  refine ⟨[], [], none, [], ?_, h.pending, .idle, h.printed, ?_, Nat.zero_le _, h.period⟩
  · rw [h.tool]
    rfl
  · rw [h.tool]

/-- Over every run, wherever the interrupt sends its replies and the reads of the tool time out:
the tool has only samples of lines that were printed, each at most once and in their order, and
besides the line that is just being sent it has lost at most one for each disturbance. -/
theorem captured_samples {s : Link} (hs : Fresh s) {run : List Event}
    (hrun : EachStep (step accelNorm mul b) (Shows mul b) s run) :
    (exec (step accelNorm mul b) s run).tool.samples.Sublist
        (exec (step accelNorm mul b) s run).printed ∧
      (exec (step accelNorm mul b) s run).printed.length ≤
        (exec (step accelNorm mul b) s run).tool.samples.length +
          (exec (step accelNorm mul b) s run).disturbed +
          (if (exec (step accelNorm mul b) s run).pending = [] then 0 else 1) := by
  obtain ⟨p, q, awaited, earlier, h⟩ := hrun.invariant inv_step (inv_fresh hs)
  rw [h.printed]
  refine ⟨h.samples.trans (List.sublist_append_left _ _), ?_⟩
  have hcount := h.count
  rw [List.length_append]
  split_ifs with hpending
  · -- with nothing to be sent no line is awaited
    rw [h.pending] at hpending
    obtain rfl := List.map_eq_nil_iff.mp hpending
    obtain ⟨-, rfl⟩ := h.underway.of_sent
    simpa using hcount
  · have hone : awaited.toList.length ≤ 1 := Option.length_toList_le
    omega

/-- Only the line of the IMU is switched on. -/
def rawImuOnly : Link where
  telemetry := { Telemetry.initial with enabled := false, rawImuEnabled := true }
  stage := .idle
  pending := []
  tool := ⟨[], []⟩
  printed := []
  disturbed := 0

def binary32One : Binary32 := ⟨false, ⟨127, by decide⟩, ⟨0, by decide⟩⟩

/-- All numbers are one, and the flag is set. -/
def onesProgram : Program where
  float _ := binary32One
  byte _ := 1
  half _ := 1
  buf _ := 0

def someBindings : Bindings := ⟨⟨1, 2, 3, 4, 5, 6, 7, 8, 9⟩, ⟨1, 8, 2, 3, 4, 5⟩, someArgs⟩

/-- The next steps of the task. A call that is at its end has none. -/
def taskSteps (n : ℕ) : List Event := List.replicate n (.task onesProgram)

/-- `$PAUSE` is received, and the read times out before the fourth byte of the reply. -/
def pauseLine : List Event := (ascii "$PAUSE\n").map fun byte => .rxByte byte (fun _ => 0) (· == 3)

/-- Five lines. In the second one the read times out, and in the third one the reply comes. -/
def fiveLines : List Event :=
  .tick 0 :: taskSteps 80 ++
  .tick 1000 :: taskSteps 40 ++ .timeout :: taskSteps 40 ++
  .tick 2000 :: taskSteps 40 ++ pauseLine ++ taskSteps 40 ++
  .tick 3000 :: taskSteps 80 ++
  .tick 4000 :: taskSteps 80

theorem showable_onesProgram : Showable (fun x _ => x) someBindings onesProgram where
  float := by
    intro x hx
    have hone : x = binary32One := by
      simpa [shown, chassisFloats, onesProgram, ImuArgs.floats, someBindings, someArgs] using hx
    rw [hone]
    exact ⟨by decide, by decide +kernel⟩
  ready := by decide

theorem shows_fiveLines (step : Link → Event → Link) :
    EachStep step (Shows (fun x _ => x) someBindings) rawImuOnly fiveLines := by
  have hones : ∀ m, .task m ∈ fiveLines → m = onesProgram := by
    intro m hm
    have hsteps : ∀ n, .task m ∈ taskSteps n → m = onesProgram := fun n h =>
      Event.task.inj (List.eq_of_mem_replicate h)
    have hpause : .task m ∉ pauseLine := by simp [pauseLine]
    simp only [fiveLines, List.mem_append, List.mem_cons, reduceCtorEq, false_or] at hm
    tauto
  rw [eachStep_iff_of_append]
  intro before e since hrun
  cases e with
  | task m => exact hones m (hrun ▸ List.mem_append_right before List.mem_cons_self) ▸
      showable_onesProgram
  | _ => trivial

def afterFiveLines : Link :=
  exec (step (fun ax _ _ => ax) (fun x _ => x) someBindings) rawImuOnly fiveLines

/-- The time-out, the reply and the time-out within it leave two of the five lines at least. -/
theorem captured_samples_fiveLines :
    (afterFiveLines.printed.length = 5 ∧ afterFiveLines.disturbed = 3) ∧
      afterFiveLines.tool.samples.Sublist afterFiveLines.printed ∧
      2 ≤ afterFiveLines.tool.samples.length := by
  have hprinted : afterFiveLines.printed.length = 5 := by decide +kernel
  have hdisturbed : afterFiveLines.disturbed = 3 := by decide +kernel
  have hpending : afterFiveLines.pending = [] := by decide +kernel
  have hfresh : Fresh rawImuOnly := ⟨by decide, rfl, rfl, rfl, rfl⟩
  have hcaptured := captured_samples hfresh
    (shows_fiveLines (step (fun ax _ _ => ax) (fun x _ => x) someBindings))
  rw [← afterFiveLines, hprinted, hdisturbed, if_pos hpending] at hcaptured
  exact ⟨⟨hprinted, hdisturbed⟩, hcaptured.1, by omega⟩

end NuedcFirmware.Modules.TelemetryOutput.Capture
