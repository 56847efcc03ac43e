import NuedcFirmware.Modules.InvImuEnds
import NuedcFirmware.Platform.SpiFraming

/-!
The sensor on the SPI bus of the board.

The callbacks of `dev_icm45688.c` put the transfers of the vendor driver on the bus. What the
lines show is cut into one part for each transfer, and in the part of one that succeeded the
sensor hears a single frame: the command and the bytes sent, each for a byte of its own, and
in a reading these are the bytes that the vendor driver gets.
-/

namespace NuedcFirmware.Modules

open NuedcFirmware.Lib NuedcFirmware.Platform NuedcFirmware.Platform.SpiFraming

/-! ### Frames -/

/-- What a device has heard: the frame that is open, and those before it. -/
structure Heard where
  frame : Option (List (UInt8 × UInt8))
  frames : List (List (UInt8 × UInt8))

/-- The device takes part where its line is low. -/
def Heard.hear (h : Heard) : Event → Heard
  | .select => { h with frame := some [] }
  | .deselect => { frame := none, frames := h.frames ++ h.frame.toList }
  | .exchange tx rx => { h with frame := h.frame.map (· ++ [(tx, rx)]) }

/-- The device, its line high, hears some frames, and its line is high again. -/
def Hears (frames : List (List (UInt8 × UInt8))) (events : List Event) : Prop :=
  ∀ before, events.foldl Heard.hear ⟨none, before⟩ = ⟨none, before ++ frames⟩

theorem Hears.append {frames frames' : List (List (UInt8 × UInt8))} {events events' : List Event}
    (h : Hears frames events) (h' : Hears frames' events') :
    Hears (frames ++ frames') (events ++ events') := by
  intro before
  rw [List.foldl_append, h, h', List.append_assoc]

theorem hears_stale {stale : List Event} (hselect : .select ∉ stale)
    (hdeselect : .deselect ∉ stale) : Hears [] stale := by
  intro before
  rw [List.append_nil]
  induction stale with
  | nil => rfl
  | cons e stale ih =>
      obtain ⟨hs, hselect'⟩ := not_or.mp (List.mem_cons.not.mp hselect)
      obtain ⟨hd, hdeselect'⟩ := not_or.mp (List.mem_cons.not.mp hdeselect)
      cases e with
      | select => exact absurd rfl hs
      | deselect => exact absurd rfl hd
      | exchange tx rx => exact ih hselect' hdeselect'

theorem hear_exchanges (tx rx : List UInt8) (frame : List (UInt8 × UInt8))
    (before : List (List (UInt8 × UInt8))) :
    (exchanges tx rx).foldl Heard.hear ⟨some frame, before⟩ =
      ⟨some (frame ++ tx.zip rx), before⟩ := by
  induction tx generalizing rx frame with
  | nil => simp [exchanges]
  | cons b tx ih =>
      cases rx with
      | nil => simp [exchanges]
      | cons b' rx =>
          show (exchanges tx rx).foldl Heard.hear ⟨some (frame ++ [(b, b')]), before⟩ = _
          rw [ih, List.append_assoc]
          rfl

theorem hears_frame (tx rx : List UInt8) :
    Hears [tx.zip rx] (.select :: (exchanges tx rx ++ [.deselect])) := by
  intro before
  rw [List.foldl_cons, Heard.hear, List.foldl_append, hear_exchanges]
  rfl

/-- The command of a transfer and its bytes, in a frame. -/
def Transfer.InFrame (tr : Transfer) (frame : List (UInt8 × UInt8)) : Prop :=
  match tr with
  | .read reg bytes _ =>
      frame.map Prod.fst = (reg ||| 0x80) :: List.replicate bytes.length 0x00 ∧
        (frame.map Prod.snd).tail = bytes
  | .write reg bytes _ => frame.map Prod.fst = (reg &&& 0x7F) :: bytes

/-- A transfer that succeeded is one frame. -/
def Transfer.Seen (tr : Transfer) (events : List Event) : Prop :=
  tr.ok = true → ∃ frame, Hears [frame] events ∧ tr.InFrame frame

/-- The transfers of a sequence that all succeeded are the frames heard, one by one. -/
theorem hears_of_seen {transfers : List Transfer} {parts : List (List Event)}
    (h : List.Forall₂ Transfer.Seen transfers parts) (hok : ∀ tr ∈ transfers, tr.ok = true) :
    ∃ frames, Hears frames parts.flatten ∧ List.Forall₂ Transfer.InFrame transfers frames := by
  induction h with
  | nil => exact ⟨[], fun before => by simp, .nil⟩
  | cons hseen _ ih =>
      obtain ⟨hfirst, hrest⟩ := List.forall_mem_cons.mp hok
      obtain ⟨frame, hhears, hframe⟩ := hseen hfirst
      obtain ⟨frames, hhears', hframes⟩ := ih hrest
      exact ⟨frame :: frames, hhears.append hhears', .cons hframe hframes⟩

/-! ### Callbacks -/

/-- The controller and the transfers made on it. -/
structure SensorBus where
  controller : Controller
  transfers : List Transfer

variable (out : Outside) (bus : DrvSpiBus)

/-- A call of the SPI driver, whose loop has the rounds that it may need. -/
def spiRun (call : Call) : Driver Controller (ℤ × (ℕ → UInt8)) :=
  fun c => (call.run out (c.held + 1)).run c

def icmSpiWrite (reg : UInt8) (buf : ℕ → UInt8) (len : UInt32) : Driver Controller ℤ :=
  if len = 0 then return -1
  else do
    let r ← spiRun out (.writeReg8 (some bus) reg ⟨false, buf⟩ len)
    return r.1

def icmSpiRead (reg : UInt8) (buf : ℕ → UInt8) (len : UInt32) :
    Driver Controller ((ℕ → UInt8) × ℤ) :=
  if bus.inst = 0 ∨ len = 0 then return (buf, -1)
  else do
    let r ← spiRun out (.readReg8 (some bus) reg ⟨false, buf⟩ len)
    return (r.2, r.1)

/-- A callback, and its transfer added to the list. -/
def logged {α : Type} (p : Driver Controller α) (entry : α → Transfer) : Driver SensorBus α :=
  fun s => (p.run s.controller).map fun r => (r.1, ⟨r.2, s.transfers ++ [entry r.1]⟩)

theorem yields_logged {α : Type} (p : Driver Controller α) (entry : α → Transfer) (s : SensorBus) :
    Yields (logged p entry) s fun a s' => s'.transfers = s.transfers ++ [entry a] := by
  intro r hr
  obtain ⟨r', -, rfl⟩ := Option.map_eq_some_iff.mp hr
  rfl

/-- What `ICM45688_MSPM0_InitHandleSPI` puts into the handle of the vendor driver. What the
controller does while the driver sleeps it has done before the next access. -/
def icmTransport : TracedTransport SensorBus where
  readReg reg buf len := logged (icmSpiRead out bus reg buf len) fun r =>
    .read reg (bufferBytes r.1 len) (r.2 = 0)
  writeReg reg buf len := logged (icmSpiWrite out bus reg buf len) fun status =>
    .write reg (bufferBytes buf len) (status = 0)
  sleepUs _ := pure ()
  serifType := uiSpi4
  log := SensorBus.transfers
  log_readReg _ _ _ s := yields_logged _ _ s
  log_writeReg _ _ _ s := yields_logged _ _ s
  log_sleepUs _ _ := yields_pure.mpr rfl

/-! ### Transfers on the lines -/

/-- The line is high, and what has been seen since `before` is in parts, one for each
transfer. -/
def OnWire (before : List Event) (s : SensorBus) : Prop :=
  s.controller.selected = false ∧ ∃ parts : List (List Event),
    List.Forall₂ Transfer.Seen s.transfers parts ∧ s.controller.log = before ++ parts.flatten

variable {out bus} {c : Controller}

theorem ensures_spiRun (hselected : c.selected = false) (call : Call) :
    Ensures (spiRun out call) c fun r c' => c'.selected = false ∧ ∃ events,
      c'.log = c.log ++ events ∧ (r.1 = 0 → ∃ frame, Hears [frame] events ∧
        frame.map Prod.fst = call.command :: call.payload ∧
        frame.length = call.len.toNat + 1 ∧ call.Stores (frame.map Prod.snd) r.2) := by
  obtain ⟨r, events, hrun, hlog, hselected', -, hdone⟩ := framed_call out hselected call
  refine ⟨(r, _), hrun, hselected', events, hlog, fun hr => ?_⟩
  obtain ⟨stale, rx, hselect, hdeselect, hlength, rfl, hstores⟩ := hdone hr
  have hpayload : call.payload.length = call.len.toNat := by
    cases call <;> simp [Call.payload, Call.len]
  have htx : (call.command :: call.payload).length = rx.length := by
    rw [List.length_cons, hpayload, hlength]
  refine ⟨_, (hears_stale hselect hdeselect).append (hears_frame _ _), ?_, ?_, ?_⟩
  · exact List.map_fst_zip (Nat.le_of_eq htx)
  · rw [List.length_zip, htx, Nat.min_self, hlength]
  · rwa [List.map_snd_zip (Nat.le_of_eq htx.symm)]

theorem tail_eq_bufferBytes {rx : List UInt8} {len : UInt32} {data : ℕ → UInt8}
    (hlength : rx.length = len.toNat + 1)
    (hdata : ∀ i < len.toNat, data i = rx.getD (i + 1) 0) : rx.tail = bufferBytes data len := by
  rw [bufferBytes]
  refine List.ext_getElem (by simp [hlength]) fun i hi hi' => ?_
  rw [List.length_tail] at hi
  rw [List.getElem_tail, List.getElem_map, List.getElem_range, hdata i (by omega),
    List.getD_eq_getElem _ _ (by omega)]

/-- A callback whose transfer is seen keeps the lines in order. -/
theorem ends_logged {α : Type} (p : Driver Controller α) (entry : α → Transfer)
    {before : List Event}
    (h : ∀ c : Controller, c.selected = false → Ensures p c fun a c' =>
      c'.selected = false ∧ ∃ events, c'.log = c.log ++ events ∧ (entry a).Seen events) :
    Ends (OnWire before) (logged p entry) := by
  rintro s ⟨hselected, parts, hparts, hlog⟩
  obtain ⟨⟨a, c'⟩, hrun, hselected', events, hlog', hseen⟩ := h s.controller hselected
  refine ⟨(a, ⟨c', s.transfers ++ [entry a]⟩), ?_, hselected', parts ++ [events], ?_, ?_⟩
  · exact Option.map_eq_some_iff.mpr ⟨(a, c'), hrun, rfl⟩
  · exact List.rel_append hparts (.cons hseen .nil)
  · rw [hlog', hlog, List.append_assoc, List.flatten_append, List.flatten_singleton]

theorem seen_of_refused {tr : Transfer} (h : tr.ok = false) (events : List Event) :
    tr.Seen events := fun hok => by
  rw [h] at hok
  cases hok

variable (out bus) in
theorem icmTransport_returns (before : List Event) :
    (icmTransport out bus).Returns (OnWire before) where
  readReg reg buf len := by
    refine ends_logged (icmSpiRead out bus reg buf len)
      (fun r => .read reg (bufferBytes r.1 len) (r.2 = 0)) fun c hselected => ?_
    rw [icmSpiRead]
    split
    · exact ensures_pure.mpr ⟨hselected, [], (List.append_nil _).symm, seen_of_refused rfl _⟩
    · rw [ensures_bind]
      refine (ensures_spiRun hselected _).imp ?_
      rintro r c' ⟨hselected', events, hlog, hdone⟩
      refine ensures_pure.mpr ⟨hselected', events, hlog, fun hok => ?_⟩
      obtain ⟨frame, hheard, htx, hlength, hstores⟩ := hdone (of_decide_eq_true hok)
      have hbytes : (frame.map Prod.snd).tail = bufferBytes r.2 len := by
        refine tail_eq_bufferBytes (by rw [List.length_map, hlength]; rfl) fun i hi => ?_
        rw [hstores i, if_pos hi]
      refine ⟨frame, hheard, ?_, hbytes⟩
      rw [htx, bufferBytes, List.length_map, List.length_range]
      rfl
  writeReg reg buf len := by
    refine ends_logged (icmSpiWrite out bus reg buf len)
      (fun status => .write reg (bufferBytes buf len) (status = 0)) fun c hselected => ?_
    rw [icmSpiWrite]
    split
    · exact ensures_pure.mpr ⟨hselected, [], (List.append_nil _).symm, seen_of_refused rfl _⟩
    · rw [ensures_bind]
      refine (ensures_spiRun hselected _).imp ?_
      rintro r c' ⟨hselected', events, hlog, hdone⟩
      refine ensures_pure.mpr ⟨hselected', events, hlog, fun hok => ?_⟩
      obtain ⟨frame, hheard, htx, -, -⟩ := hdone (of_decide_eq_true hok)
      exact ⟨frame, hheard, htx⟩
  sleepUs _ := ends_pure ()

/-! ### A session -/

namespace Icm45688

open InvImu

variable {F : Type} [CMath F]

/-- The parts of some transfers, and those of the transfers after them. -/
theorem onWire_append {before : List Event} {s : SensorBus} (h : OnWire before s)
    {first rest : List Transfer} (hs : s.transfers = first ++ rest) :
    ∃ parts parts', List.Forall₂ Transfer.Seen first parts ∧
      List.Forall₂ Transfer.Seen rest parts' ∧
      s.controller.log = before ++ (parts.flatten ++ parts'.flatten) := by
  obtain ⟨-, parts, hparts, hlog⟩ := h
  rw [hs] at hparts
  have hfirst := List.forall₂_take_append parts first rest hparts.flip
  have hrest := List.forall₂_drop_append parts first rest hparts.flip
  refine ⟨_, _, hfirst.flip, hrest.flip, ?_⟩
  rw [hlog, ← List.flatten_append, List.take_append_drop]

/-- A begin with all its transfers and `n` rounds, of which the sensor has heard the begin. -/
def Begun (slew : UInt8) (n : ℕ) (before : List Event) (s : SensorBus) : Prop :=
  ∃ (a : Answered) (rounds : List (List Transfer)) (events events' : List Event)
    (frames : List (List (UInt8 × UInt8))),
    rounds.length = n ∧ (∀ out ∈ rounds, RoundSends out) ∧
      s.transfers = beginOut slew a ++ rounds.flatten ∧
      s.controller.log = before ++ (events ++ events') ∧ Hears frames events ∧
      List.Forall₂ Transfer.InFrame (beginOut slew a) frames

/-- A sensor that answers every byte at once, with its name. -/
def namesItself : Outside where
  incoming _ := [invImuWhoami]
  busy _ := false
  txFull _ := false

/-- The bus of the sensor. -/
def imuBus : DrvSpiBus := ⟨0x40468000, 0x400A0000, 2, 2⟩

end Icm45688

end NuedcFirmware.Modules
