import NuedcFirmware.Lib.Run
import NuedcFirmware.Platform.Spi

/-!
The register transfers on a controller that does its part.

The controller exchanges the bytes given to it one by one, in their order, each for one
byte of the device, and keeps what comes back in its receive FIFO. When it does so is not
known: before every access of the driver any number of the bytes in flight is exchanged.
Its flags tell the truth, in that it is busy while a byte is in flight.

A transfer that is given up leaves bytes in flight and bytes nobody has read. They are no
trouble to the next one: it begins when the controller is idle, and drops what is in the
FIFO then.
-/

namespace NuedcFirmware.Platform.SpiFraming

open NuedcFirmware.Lib DrvSpi

/-- What is seen on the lines. -/
inductive Event
  | select
  | deselect
  | exchange (tx rx : UInt8)
  deriving DecidableEq, Repr

structure Controller where
  /-- Given to the controller and not exchanged yet. -/
  inFlight : List UInt8
  /-- Received and not read yet. -/
  rxFifo : List UInt8
  /-- The chip select line is low. -/
  selected : Bool
  /-- The accesses made so far. -/
  accesses : ℕ
  log : List Event

/-- What the driver does not decide: the bytes of the device that come in before every
access, whether the busy flag is set with nothing in flight, and the flag of the transmit
FIFO. -/
structure Outside where
  incoming : ℕ → List UInt8
  busy : ℕ → Bool
  txFull : ℕ → Bool

namespace Controller

/-- Bytes in flight are exchanged for `bytes`. -/
def settle (c : Controller) (bytes : List UInt8) : Controller :=
  { c with
    inFlight := c.inFlight.drop bytes.length
    rxFifo := c.rxFifo ++ (c.inFlight.zip bytes).map Prod.snd
    log := c.log ++ (c.inFlight.zip bytes).map fun e => .exchange e.1 e.2 }

/-- What happens up to the next access. -/
def tick (out : Outside) (c : Controller) : Controller :=
  { c.settle (out.incoming c.accesses) with accesses := c.accesses + 1 }

end Controller

/-- The driver library on this controller. -/
def dl (out : Outside) : DlSpi Controller where
  isBusy := access fun c =>
    ((c.tick out).inFlight ≠ [] || out.busy c.accesses, c.tick out)
  isRXFIFOEmpty := access fun c => ((c.tick out).rxFifo = [], c.tick out)
  isTXFIFOFull := access fun c => (out.txFull c.accesses, c.tick out)
  receiveData8 := access fun c =>
    ((c.tick out).rxFifo.headD 0, { c.tick out with rxFifo := (c.tick out).rxFifo.tail })
  transmitData8 b := access fun c =>
    ((), { c.tick out with inFlight := (c.tick out).inFlight ++ [b] })
  clearPins := access fun c =>
    ((), { c.tick out with selected := true, log := (c.tick out).log ++ [.select] })
  setPins := access fun c =>
    ((), { c.tick out with selected := false, log := (c.tick out).log ++ [.deselect] })

/-- A call of the driver. -/
inductive Call
  | writeReg8 (bus : Option DrvSpiBus) (reg : UInt8) (data : BytePtr) (len : UInt32)
  | readReg8 (bus : Option DrvSpiBus) (reg : UInt8) (data : BytePtr) (len : UInt32)

namespace Call

def bus : Call → Option DrvSpiBus
  | writeReg8 bus _ _ _ | readReg8 bus _ _ _ => bus

def data : Call → BytePtr
  | writeReg8 _ _ data _ | readReg8 _ _ data _ => data

def len : Call → UInt32
  | writeReg8 _ _ _ len | readReg8 _ _ _ len => len

/-- The result, and the bytes of `data` afterwards. -/
def run (out : Outside) (fuel : ℕ) : Call → Driver Controller (ℤ × (ℕ → UInt8))
  | writeReg8 bus reg data len => do
      return (← drvSpiWriteReg8 (dl out) fuel bus reg data len, data.bytes)
  | readReg8 bus reg data len => drvSpiReadReg8 (dl out) fuel bus reg data len

/-- The byte that says which register. -/
def command : Call → UInt8
  | writeReg8 _ reg _ _ => reg &&& 0x7F
  | readReg8 _ reg _ _ => reg ||| 0x80

/-- What is sent behind it. -/
def payload : Call → List UInt8
  | writeReg8 _ _ data len => (List.range len.toNat).map data.bytes
  | readReg8 _ _ _ len => List.replicate len.toNat 0x00

end Call

/-- The arguments are refused, or the controller stays busy. -/
def CannotStart (out : Outside) (bus : Option DrvSpiBus) (data : BytePtr) (len : UInt32)
    (c : Controller) : Prop :=
  ∀ b ∈ bus, valid b data len = true →
    Ensures (waitNotBusy (dl out) b) c fun ok _ => ok = false

/-- Bytes that the controller holds, on their way out or received. -/
def Controller.held (c : Controller) : ℕ := c.inFlight.length + c.rxFifo.length

/-- The controller after the call. -/
def step (out : Outside) (c : Controller) (call : Call) : Controller :=
  ((call.run out (c.held + 1)).run c).elim c Prod.snd

/-- The bytes of `data` after the call: those received behind the answer to the command. -/
def Call.Stores (rx : List UInt8) (data : ℕ → UInt8) : Call → Prop
  | writeReg8 _ _ old _ => data = old.bytes
  | readReg8 _ _ old len =>
      ∀ i, data i = if i < len.toNat then rx.getD (i + 1) 0 else old.bytes i

/-- Bytes given to the controller, and those that it got for them. -/
def exchanges (tx rx : List UInt8) : List Event := List.zipWith .exchange tx rx

/-- What a call does. It returns, with the chip select line high; it has not touched the
line where it cannot start; and where it returns 0, what was exchanged while the line was
low is the command and the payload, each byte for the one that is stored for it. -/
def Framed (out : Outside) (c : Controller) (call : Call) : Prop :=
  ∃ r events, (call.run out (c.held + 1)).run c = some (r, step out c call) ∧
    (step out c call).log = c.log ++ events ∧ (step out c call).selected = false ∧
    (CannotStart out call.bus call.data call.len c → r.1 = -1 ∧ .select ∉ events) ∧
    (r.1 = 0 → ∃ stale rx, .select ∉ stale ∧ .deselect ∉ stale ∧ rx.length = call.len.toNat + 1 ∧
      events = stale ++ .select ::
        (exchanges (call.command :: call.payload) rx ++ [.deselect]) ∧
      call.Stores rx r.2)

/-! ### Between the accesses -/

/-- Nothing but exchanges has been seen. -/
structure Quiet (c c' : Controller) : Prop where
  selected : c'.selected = c.selected
  log : ∃ stale, c'.log = c.log ++ stale ∧ .select ∉ stale ∧ .deselect ∉ stale

theorem Quiet.refl (c : Controller) : Quiet c c := ⟨rfl, [], by simp⟩

theorem Quiet.trans {c c' c'' : Controller} (h : Quiet c c') (h' : Quiet c' c'') : Quiet c c'' := by
  obtain ⟨stale, hlog, hselect, hdeselect⟩ := h.log
  obtain ⟨stale', hlog', hselect', hdeselect'⟩ := h'.log
  refine ⟨h'.selected.trans h.selected, stale ++ stale', ?_, ?_, ?_⟩
  · rw [hlog', hlog, List.append_assoc]
  · simp [hselect, hselect']
  · simp [hdeselect, hdeselect']

theorem quiet_tick (out : Outside) (c : Controller) : Quiet c (c.tick out) :=
  ⟨rfl, _, rfl, by simp, by simp⟩

theorem held_tick (out : Outside) (c : Controller) : (c.tick out).held = c.held := by
  simp only [Controller.tick, Controller.settle, Controller.held, List.length_drop,
    List.length_append, List.length_map, List.length_zip]
  omega

/-- The controller, up to the number of accesses. -/
structure Shows (inFlight rxFifo : List UInt8) (selected : Bool) (log : List Event)
    (c : Controller) : Prop where
  inFlight : c.inFlight = inFlight
  rxFifo : c.rxFifo = rxFifo
  selected : c.selected = selected
  log : c.log = log

section Access

variable {out : Outside} {c : Controller} {rxFifo : List UInt8} {selected : Bool}
  {log : List Event}

variable (out) in
/-- With nothing in flight nothing happens. -/
theorem Shows.tick (h : Shows [] rxFifo selected log c) :
    Shows [] rxFifo selected log (c.tick out) := by
  constructor <;> simp [Controller.tick, Controller.settle, h.inFlight, h.rxFifo, h.selected, h.log]

variable (out) in
/-- A byte in flight stays there, or is exchanged. -/
theorem Shows.tick_singleton {b : UInt8} (h : Shows [b] [] selected log c) :
    Shows [b] [] selected log (c.tick out) ∨
      ∃ rx, Shows [] [rx] selected (log ++ [.exchange b rx]) (c.tick out) := by
  cases hin : out.incoming c.accesses with
  | nil =>
      left
      constructor <;>
        simp [Controller.tick, Controller.settle, h.inFlight, h.rxFifo, h.selected, h.log, hin]
  | cons rx more =>
      right
      refine ⟨rx, ?_⟩
      constructor <;>
        simp [Controller.tick, Controller.settle, h.inFlight, h.rxFifo, h.selected, h.log, hin]

theorem ensures_receiveData8 {rx : UInt8} (h : Shows [] (rx :: rxFifo) selected log c) :
    Ensures (dl out).receiveData8 c fun b c' => b = rx ∧ Shows [] rxFifo selected log c' := by
  have htick := h.tick out
  simp only [dl, ensures_access, htick.rxFifo]
  exact ⟨rfl, htick.inFlight, rfl, htick.selected, htick.log⟩

theorem ensures_transmitData8 (h : Shows [] [] selected log c) (b : UInt8) :
    Ensures ((dl out).transmitData8 b) c fun _ c' => Shows [b] [] selected log c' := by
  have htick := h.tick out
  simp only [dl, ensures_access, htick.inFlight]
  exact ⟨rfl, htick.rxFifo, htick.selected, htick.log⟩

theorem ensures_clearPins (h : Shows [] [] selected log c) :
    Ensures (dl out).clearPins c fun _ c' => Shows [] [] true (log ++ [.select]) c' := by
  have htick := h.tick out
  simp only [dl, ensures_access, htick.log]
  exact ⟨htick.inFlight, htick.rxFifo, rfl, rfl⟩

theorem ensures_setPins (h : Shows [] [] selected log c) :
    Ensures (dl out).setPins c fun _ c' => Shows [] [] false (log ++ [.deselect]) c' := by
  have htick := h.tick out
  simp only [dl, ensures_access, htick.log]
  exact ⟨htick.inFlight, htick.rxFifo, rfl, rfl⟩

variable (out) in
/-- Waiting for a flag with nothing in flight changes nothing. -/
theorem ensures_poll_idle (flag : Driver Controller Bool)
    (hflag : ∀ c, Ensures flag c fun _ c' => c' = c.tick out)
    (h : Shows [] [] selected log c) (timeout : ℕ) :
    Ensures (poll flag timeout) c fun _ c' => Shows [] [] selected log c' := by
  refine (ensures_poll (I := Shows [] [] selected log) (Q := Shows [] [] selected log) ?_ h
    timeout).imp fun ok c' h => ?_
  · intro c' h'
    refine (hflag c').imp fun b c'' hc'' => ?_
    rw [hc'', ite_self]
    exact h'.tick out
  · rwa [ite_self] at h

end Access

/-! ### The parts of a transfer -/

section Parts

variable {out : Outside} {c : Controller} {bus : DrvSpiBus} {selected : Bool} {log : List Event}

/-- The busy flag is found clear with nothing in flight. -/
theorem ensures_waitNotBusy (c : Controller) :
    Ensures (waitNotBusy (dl out) bus) c fun ok c' =>
      Quiet c c' ∧ c'.held = c.held ∧ (ok = true → c'.inFlight = []) := by
  refine (ensures_poll (I := fun c' => Quiet c c' ∧ c'.held = c.held)
    (Q := fun c' => (Quiet c c' ∧ c'.held = c.held) ∧ c'.inFlight = []) ?_
    ⟨Quiet.refl c, rfl⟩ _).imp fun ok c' h => ?_
  · intro c' hc'
    have hkept := And.intro (hc'.1.trans (quiet_tick out c')) ((held_tick out c').trans hc'.2)
    simp only [dl, ensures_access]
    by_cases hflight : (c'.tick out).inFlight = []
    · cases out.busy c'.accesses with
      | false => simpa [hflight] using hkept
      | true => simpa using hkept
    · simpa [hflight] using hkept
  · cases ok with
    | false => exact ⟨h.1, h.2, by simp⟩
    | true => exact ⟨h.1.1, h.1.2, fun _ => h.2⟩

theorem ensures_drainRx {rxFifo : List UInt8} (h : Shows [] rxFifo selected log c) {fuel : ℕ}
    (hfuel : rxFifo.length < fuel) :
    Ensures (drainRx (dl out) fuel) c fun _ c' => Shows [] [] selected log c' := by
  refine ensures_waitClear (I := fun c' => Shows [] c'.rxFifo selected log c')
    (Φ := fun c' => c'.rxFifo.length) ?_ ?_ (by rwa [h.rxFifo])
  · intro c' h'
    have htick := h'.tick out
    rw [ensures_bind]
    simp only [dl, ensures_access, ensures_pure]
    cases hfifo : c'.rxFifo with
    | nil => simpa [htick.rxFifo, hfifo] using htick
    | cons rx rxFifo =>
        rw [hfifo] at htick
        simp only [htick.rxFifo, reduceCtorEq, decide_false, Bool.not_false, if_true, ensures_bind]
        refine (ensures_receiveData8 htick).imp fun _ c'' hc'' => ?_
        rw [ensures_pure, hc''.2.rxFifo]
        exact ⟨hc''.2, Nat.lt_succ_self _⟩
  · rwa [h.rxFifo]

/-- Where the wait for the answer ends in time, the byte has been exchanged. -/
theorem ensures_poll_rx {tx : UInt8} (h : Shows [tx] [] selected log c) (timeout : ℕ) :
    Ensures (poll (dl out).isRXFIFOEmpty timeout) c fun ok c' =>
      if ok then ∃ rx, Shows [] [rx] selected (log ++ [.exchange tx rx]) c'
      else Shows [tx] [] selected log c' := by
  refine ensures_poll (I := Shows [tx] [] selected log)
    (Q := fun c' => ∃ rx, Shows [] [rx] selected (log ++ [.exchange tx rx]) c') ?_ h timeout
  intro c' h'
  simp only [dl, ensures_access]
  rcases h'.tick_singleton out with hstays | ⟨rx, hexchanged⟩
  · simpa [hstays.rxFifo] using hstays
  · simpa [hexchanged.rxFifo] using ⟨rx, hexchanged⟩

/-- A byte is exchanged, or has been given up. -/
theorem ensures_transfer8 (h : Shows [] [] selected log c) (tx : UInt8) :
    Ensures (transfer8 (dl out) bus tx) c fun r c' =>
      match r with
      | none => ∃ inFlight, Shows inFlight [] selected log c'
      | some rx => Shows [] [] selected (log ++ [.exchange tx rx]) c' := by
  rw [transfer8, ensures_bind]
  have hfull := ensures_poll_idle out (dl out).isTXFIFOFull
    (fun c => by simp [dl]) h (waitLimit bus)
  refine hfull.imp fun ok c₁ h₁ => ?_
  cases ok with
  | false => simpa using ⟨[], h₁⟩
  | true =>
      simp only [if_true, ensures_bind]
      refine (ensures_transmitData8 h₁ tx).imp fun _ c₂ h₂ => ?_
      refine (ensures_poll_rx h₂ _).imp fun ok c₃ h₃ => ?_
      cases ok with
      | false => simpa using ⟨[tx], h₃⟩
      | true =>
          obtain ⟨rx, h₃⟩ := h₃
          simp only [if_true, ensures_bind]
          refine (ensures_receiveData8 h₃).imp fun b c₄ h₄ => ?_
          rw [ensures_pure, h₄.1]
          exact h₄.2

/-- The bytes `tx i` to `tx (i + n - 1)` are exchanged for those that are stored. -/
theorem ensures_transferBytes {tx : ℕ → UInt8} {n i : ℕ} {data : ℕ → UInt8}
    (h : Shows [] [] selected log c) :
    Ensures (transferBytes (dl out) bus tx n i data) c fun r c' =>
      if r.1 then
        ∃ rx : List UInt8, rx.length = n ∧
          Shows [] [] selected (log ++ exchanges ((List.range' i n).map tx) rx) c' ∧
          ∀ k, r.2 k = if i ≤ k ∧ k < i + n then rx.getD (k - i) 0 else data k
      else ∃ events, c'.log = log ++ events := by
  induction n generalizing i data log c with
  | zero =>
      rw [transferBytes, ensures_pure]
      refine ⟨[], rfl, by simpa [exchanges] using h, fun k => ?_⟩
      rw [if_neg (by omega)]
  | succ n ih =>
      rw [transferBytes, ensures_bind]
      refine (ensures_transfer8 h (tx i)).imp fun r c₁ h₁ => ?_
      cases r with
      | none =>
          obtain ⟨inFlight, h₁⟩ := h₁
          exact ensures_pure.mpr ⟨[], by simpa using h₁.log⟩
      | some b =>
          refine (ih h₁).imp fun r c₂ h₂ => ?_
          cases hr : r.1 with
          | false =>
              obtain ⟨events, hlog⟩ := by simpa [hr] using h₂
              exact ⟨.exchange (tx i) b :: events, by simp [hlog]⟩
          | true =>
              rw [hr, if_pos rfl] at h₂
              obtain ⟨rx, hlength, hshows, hdata⟩ := h₂
              refine ⟨b :: rx, by rw [List.length_cons, hlength], ?_, fun k => ?_⟩
              · simpa [exchanges, List.range'_succ] using hshows
              · rw [hdata k]
                -- the byte for `tx i` is stored before the others
                rcases Nat.lt_trichotomy k i with hlt | rfl | hgt
                · rw [if_neg (by omega), if_neg (by omega), Function.update_of_ne hlt.ne]
                · rw [if_neg (by omega), if_pos (by omega), Function.update_self]
                  simp
                · obtain ⟨j, rfl⟩ : ∃ j, k = i + 1 + j := ⟨k - (i + 1), by omega⟩
                  have hj : i + 1 + j - i = j + 1 := by omega
                  rw [hj, Nat.add_sub_cancel_left, List.getD_cons_succ,
                    Function.update_of_ne hgt.ne']
                  by_cases hn : j < n
                  · rw [if_pos (by omega), if_pos (by omega)]
                  · rw [if_neg (by omega), if_neg (by omega)]

/-- The command and the payload are exchanged, the answer to the command is dropped. -/
theorem ensures_exchangeBytes {command : UInt8} {tx data : ℕ → UInt8} {len : UInt32}
    (h : Shows [] [] selected log c) :
    Ensures (exchangeBytes (dl out) bus command tx len data) c fun r c' =>
      if r.1 then
        ∃ rx : List UInt8, rx.length = len.toNat + 1 ∧
          Shows [] [] selected
            (log ++ exchanges (command :: (List.range len.toNat).map tx) rx) c' ∧
          ∀ k, r.2 k = if k < len.toNat then rx.getD (k + 1) 0 else data k
      else ∃ events, c'.log = log ++ events := by
  rw [exchangeBytes, ensures_bind]
  refine (ensures_transfer8 h command).imp fun r c₁ h₁ => ?_
  cases r with
  | none =>
      obtain ⟨inFlight, h₁⟩ := h₁
      exact ensures_pure.mpr ⟨[], by simpa using h₁.log⟩
  | some b =>
      simp only [ensures_bind]
      refine (ensures_transferBytes h₁).imp fun r c₂ h₂ => ?_
      cases hr : r.1 with
      | false =>
          obtain ⟨events, hlog⟩ := by simpa [hr] using h₂
          simpa using ⟨.exchange command b :: events, by simp [hlog]⟩
      | true =>
          rw [hr, if_pos rfl] at h₂
          obtain ⟨rx, hlength, hshows, hdata⟩ := h₂
          have hwait := ensures_poll_idle out (dl out).isBusy
            (fun c => by simp [dl]) hshows (waitLimit bus)
          simp only [if_true, ensures_bind, ensures_pure]
          refine hwait.imp fun ok c₃ h₃ => ?_
          cases ok with
          | false => exact ⟨_, by rw [h₃.log, List.append_assoc]⟩
          | true =>
              refine ⟨b :: rx, by rw [List.length_cons, hlength], ?_, fun k => ?_⟩
              · simpa [exchanges, List.range_eq_range'] using h₃
              · simpa using hdata k

theorem ensures_drvSpiDeselect {data : BytePtr} {len : UInt32} (h : valid bus data len = true)
    {Q : Unit → Controller → Prop} (hQ : Ensures (dl out).setPins c Q) :
    Ensures (drvSpiDeselect (dl out) bus) c Q := by
  simp only [valid, Bool.and_eq_true, decide_eq_true_eq] at h
  rwa [drvSpiDeselect, if_neg (by simp [h.1.1.1.2, h.1.1.2])]

/-- Whatever has happened, the line is high behind it. -/
theorem ensures_setPins_log (c : Controller) :
    Ensures (dl out).setPins c fun _ c' =>
      c'.selected = false ∧ ∃ events, c'.log = c.log ++ events := by
  obtain ⟨stale, hlog, -⟩ := (quiet_tick out c).log
  simp only [dl, ensures_access, hlog, true_and]
  exact ⟨_, List.append_assoc ..⟩

variable (out) in
/-- What both kinds of transfer do. -/
theorem ensures_transferReg8 (hselected : c.selected = false) (bus : Option DrvSpiBus)
    (command : UInt8) (tx : ℕ → UInt8) (data : BytePtr) (len : UInt32) :
    Ensures (transferReg8 (dl out) (c.held + 1) bus command tx data len) c fun r c' =>
      ∃ events, c'.log = c.log ++ events ∧ c'.selected = false ∧
        (CannotStart out bus data len c → r.1 = false ∧ .select ∉ events) ∧
        (r.1 = true → ∃ stale rx, .select ∉ stale ∧ .deselect ∉ stale ∧
          rx.length = len.toNat + 1 ∧
          events = stale ++ .select ::
            (exchanges (command :: (List.range len.toNat).map tx) rx ++ [.deselect]) ∧
          ∀ k, r.2 k = if k < len.toNat then rx.getD (k + 1) 0 else data.bytes k) := by
  cases bus with
  | none => exact ensures_pure.mpr ⟨[], by simp, hselected, by simp, by simp⟩
  | some bus =>
      rw [transferReg8]
      by_cases hvalid : valid bus data len = true
      · rw [if_pos hvalid, ensures_bind]
        -- where the wait fails the call cannot start, and the other way round
        have hwait : Ensures (waitNotBusy (dl out) bus) c fun ok _ =>
            CannotStart out (some bus) data len c → ok = false := by
          by_cases hstart : CannotStart out (some bus) data len c
          · exact (hstart bus rfl hvalid).imp fun _ _ h _ => h
          · exact (ensures_waitNotBusy c).imp fun _ _ _ h => absurd h hstart
        refine ((ensures_waitNotBusy c).and hwait).imp fun ok c₁ h₁ => ?_
        obtain ⟨⟨hquiet, hheld, hflight⟩, hstart⟩ := h₁
        obtain ⟨stale, hlog, hselect, hdeselect⟩ := hquiet.log
        cases ok with
        | false =>
            exact ensures_pure.mpr
              ⟨stale, hlog, hquiet.selected.trans hselected, fun _ => ⟨rfl, hselect⟩, by simp⟩
        | true =>
            have hstarted : ¬ CannotStart out (some bus) data len c := fun h => by
              simpa using hstart h
            have hfifo : c₁.rxFifo.length < c.held + 1 := by
              rw [← hheld, Controller.held, hflight rfl]
              simp
            have h₁ : Shows [] c₁.rxFifo false (c.log ++ stale) c₁ :=
              ⟨hflight rfl, rfl, hquiet.selected.trans hselected, hlog⟩
            simp only [if_true, ensures_bind]
            refine (ensures_drainRx h₁ hfifo).imp fun _ c₂ h₂ => ?_
            refine (ensures_clearPins h₂).imp fun _ c₃ h₃ => ?_
            refine (ensures_exchangeBytes h₃).imp fun r c₄ h₄ => ?_
            apply ensures_drvSpiDeselect hvalid
            cases hr : r.1 with
            | false =>
                obtain ⟨events, hlog₄⟩ := by simpa [hr] using h₄
                refine (ensures_setPins_log c₄).imp fun _ c₅ h₅ => ?_
                obtain ⟨hselected₅, events', hlog₅⟩ := h₅
                refine ensures_pure.mpr ⟨stale ++ ([.select] ++ events ++ events'), ?_,
                  hselected₅, fun h => absurd h hstarted, by simp [hr]⟩
                simp [hlog₅, hlog₄]
            | true =>
                rw [hr, if_pos rfl] at h₄
                obtain ⟨rx, hlength, hshows, hdata⟩ := h₄
                refine (ensures_setPins hshows).imp fun _ c₅ h₅ => ?_
                refine ensures_pure.mpr ⟨_, ?_, h₅.selected, fun h => absurd h hstarted,
                  fun _ => ⟨stale, rx, hselect, hdeselect, hlength, rfl, hdata⟩⟩
                simp [h₅.log]
      · rw [if_neg hvalid]
        exact ensures_pure.mpr ⟨[], by simp, hselected, by simp, by simp⟩

end Parts

/-! ### Calls -/

theorem status_eq_zero {ok : Bool} (h : status ok = 0) : ok = true := by
  cases ok with
  | false => simp [status] at h
  | true => rfl

theorem framed_call (out : Outside) {c : Controller} (hselected : c.selected = false)
    (call : Call) : Framed out c call := by
  have htransfer := ensures_transferReg8 out hselected call.bus call.command
  suffices h : Ensures (call.run out (c.held + 1)) c fun r c' =>
      ∃ events, c'.log = c.log ++ events ∧ c'.selected = false ∧
        (CannotStart out call.bus call.data call.len c → r.1 = -1 ∧ .select ∉ events) ∧
        (r.1 = 0 → ∃ stale rx, .select ∉ stale ∧ .deselect ∉ stale ∧
          rx.length = call.len.toNat + 1 ∧
          events = stale ++ .select ::
            (exchanges (call.command :: call.payload) rx ++ [.deselect]) ∧
          call.Stores rx r.2) by
    obtain ⟨⟨r, c'⟩, hrun, events, hevents⟩ := h
    have hstep : step out c call = c' := by
      rw [step, Option.mem_def.mp hrun]
      rfl
    exact ⟨r, events, by rw [hstep]; exact hrun, by rw [hstep]; exact hevents⟩
  cases call with
  | writeReg8 bus reg data len =>
      simp only [Call.run, drvSpiWriteReg8, bind_assoc, ensures_bind, ensures_pure]
      refine (htransfer data.bytes data len).imp fun r c' h => ?_
      obtain ⟨events, hlog, hselected', hstart, hdone⟩ := h
      refine ⟨events, hlog, hselected', fun h => ?_, fun h => ?_⟩
      · rw [(hstart h).1]
        exact ⟨rfl, (hstart h).2⟩
      · obtain ⟨stale, rx, hselect, hdeselect, hlength, hevents, -⟩ := hdone (status_eq_zero h)
        exact ⟨stale, rx, hselect, hdeselect, hlength, hevents, rfl⟩
  | readReg8 bus reg data len =>
      simp only [Call.run, drvSpiReadReg8, ensures_bind, ensures_pure]
      refine (htransfer (fun _ => 0x00) data len).imp fun r c' h => ?_
      obtain ⟨events, hlog, hselected', hstart, hdone⟩ := h
      rw [List.map_const', List.length_range] at hdone
      refine ⟨events, hlog, hselected', fun h => ?_, fun h => hdone (status_eq_zero h)⟩
      rw [(hstart h).1]
      exact ⟨rfl, (hstart h).2⟩

/-- From a released chip select line on, every call of every sequence is framed. -/
theorem framed_run (out : Outside) {c : Controller} (hselected : c.selected = false)
    (calls : List Call) : EachStep (step out) (Framed out) c calls := by
  refine EachStep.of_invariant (I := fun c => c.selected = false) ?_
    (fun c call h => framed_call out h call) hselected
  intro c call h
  obtain ⟨-, -, -, -, hselected', -⟩ := framed_call out h call
  exact hselected'

/-- Controller and line after the initialization. -/
def released : Controller := ⟨[], [], false, 0, []⟩

/-- A device that is late with its first answer. -/
def late : Outside where
  incoming n := if n < 9 then [] else [UInt8.ofNat n]
  busy _ := false
  txFull _ := false

/-- Two bytes from register `72`. -/
def readTwice : Call :=
  .readReg8 (some ⟨0x40468000, 0x400A0000, 2, 2⟩) 0x72 ⟨false, fun _ => 0xEE⟩ 2

/-- What a call returns, and the first bytes that it leaves in `data`. -/
def Call.result (out : Outside) (c : Controller) (call : Call) (bytes : ℕ) :
    Option (ℤ × List UInt8) :=
  ((call.run out (c.held + 1)).run c).map fun r => (r.1.1, (List.range bytes).map r.1.2)

/-- The first call is given up with its command in flight. The second one returns 0 and
stores the bytes that were received for its own dummy bytes, and is framed. -/
theorem framed_run_late :
    readTwice.result late released 2 = some (-1, [0xEE, 0xEE]) ∧
      (step late released readTwice).inFlight = [0xF2] ∧
      readTwice.result late (step late released readTwice) 2 = some (0, [20, 24]) ∧
      Framed late (step late released readTwice) readTwice :=
  ⟨by decide, by decide, by decide, (framed_run late rfl [readTwice, readTwice]).2.1⟩

end NuedcFirmware.Platform.SpiFraming
