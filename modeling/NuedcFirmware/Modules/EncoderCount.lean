import NuedcFirmware.Lib.Run
import NuedcFirmware.Modules.Encoder
import Mathlib.Tactic.Ring

/-!
The encoder counts of one wheel against its true position.

Next to the two decoders runs a `Meter` that is told the true position of the
wheel at every sample. `Agrees` says that their counters are the readings of
that meter; each call keeps it, because on a movement by at most one position
the decode table returns the movement.
-/

namespace NuedcFirmware.Modules.EncoderCount

open NuedcFirmware.Lib NuedcFirmware.Platform

/-- The calls that reach the encoder module; a call that samples pins carries
the board it samples. -/
inductive EncoderCall
  | decode (w : Wheel) (b : Board)
  | getDelta (ch : ℕ)
  | getTotal (ch : ℕ)
  | poll (b : Board)
  | reset (ch : ℕ) (b : Board)

/-- Both decoders of one wheel, the deltas returned since its last reset, the
totals that were read, each with the true displacement at that moment, and the
meter of the true position. -/
structure Session where
  bsp : BspEncoder
  drv : DrvQuadEncoder
  returned : ℤ
  totals : List (ℤ × ℤ)
  meter : Meter

variable (w : Wheel)

/-- One call together with the true position of wheel `w` at that moment. -/
def step (s : Session) : EncoderCall × ℤ → Session
  | (.decode w' b, p) =>
      let s := if w' = w then
        { s with drv := drvQuadEncoderPoll b s.drv, meter := s.meter.moveTo p } else s
      { s with bsp := s.bsp.decode w' b }
  | (.getDelta ch, _) =>
      let r := bspEncoderGetDelta ch s.bsp
      let s := if encoderChannel ch = w then
        { s with returned := s.returned + r.1, meter := s.meter.take.2 } else s
      { s with bsp := r.2 }
  | (.getTotal ch, _) =>
      if encoderChannel ch = w then
        { s with
          totals := s.totals ++ [(bspEncoderGetTotal ch s.bsp, s.meter.now - s.meter.origin)] }
      else s
  | (.poll b, _) => { s with bsp := bspEncoderPoll b s.bsp }
  | (.reset ch b, p) =>
      let s := if encoderChannel ch = w then
        { s with drv := drvQuadEncoderReset b s.drv, returned := 0, meter := Meter.reset p } else s
      { s with bsp := bspEncoderReset ch b s.bsp }

/-- Initialised at position `p`, with `config` wired to the wheel's own pins. -/
def start (config : DrvQuadEncoderConfig) (b : Board) (p : ℤ) : Session where
  bsp := bspEncoderInit b
  drv := drvQuadEncoderInit config b
  returned := 0
  totals := []
  meter := Meter.reset p

/-- The positions explain the samples: each sampled state is the Gray code of the
position, consecutive samples are at most one position apart, and each delta
that is read fits in 32 bits. -/
def Explains (s : Session) : EncoderCall × ℤ → Prop
  | (.decode w' b, p) => w' = w → encoderState b w = gray p ∧ |p - s.meter.now| ≤ 1
  | (.getDelta ch, _) => encoderChannel ch = w →
      -2 ^ 31 ≤ s.bsp.total w - s.bsp.reported w ∧ s.bsp.total w - s.bsp.reported w < 2 ^ 31
  | (.reset ch b, p) => encoderChannel ch = w → encoderState b w = gray p
  | (.getTotal _, _) | (.poll _, _) => True

/-- The platform decoder reads the pins of wheel `w`. -/
def WiredTo (config : DrvQuadEncoderConfig) : Prop :=
  config.phaseA.pin = encPhaseA w ∧ config.phaseB.pin = encPhaseB w

/-- The counters are the readings of the meter. -/
structure Agrees (s : Session) : Prop where
  lastState : s.bsp.lastState w = gray s.meter.now
  total : s.bsp.total w = s.meter.travelled
  unreported : s.bsp.total w - s.bsp.reported w = s.meter.remainder
  returned : s.returned = s.meter.handedOut
  totals : ∀ t ∈ s.totals, t.1 = t.2
  wired : WiredTo w s.drv.config
  drvLastState : s.drv.lastState = gray s.meter.now
  drvTotal : s.drv.total = s.drv.config.direction * s.meter.travelled

variable {w}

theorem readState_of_wiredTo {config : DrvQuadEncoderConfig} (h : WiredTo w config) (b : Board) :
    DrvQuadEncoder.readState config b = encoderState b w := by
  simp [DrvQuadEncoder.readState, encoderState, drvGpioReadRaw, h.1, h.2]

/-- `BSP_Encoder_Poll` keeps its own record and none of the counters. -/
theorem counters_bspEncoderPoll (b : Board) (s : BspEncoder) :
    (bspEncoderPoll b s).lastState = s.lastState ∧ (bspEncoderPoll b s).total = s.total ∧
      (bspEncoderPoll b s).reported = s.reported := by
  have hwheel (w : Wheel) (s : BspEncoder) : (s.pollWheel w b).lastState = s.lastState ∧
      (s.pollWheel w b).total = s.total ∧ (s.pollWheel w b).reported = s.reported := by
    rw [BspEncoder.pollWheel]
    dsimp only
    split <;> exact ⟨rfl, rfl, rfl⟩
  obtain ⟨hlast, htotal, hreported⟩ := hwheel .left s
  obtain ⟨hlast', htotal', hreported'⟩ := hwheel .right (s.pollWheel .left b)
  exact ⟨hlast'.trans hlast, htotal'.trans htotal, hreported'.trans hreported⟩

theorem agrees_start {config : DrvQuadEncoderConfig} (hwired : WiredTo w config) {b : Board}
    {p : ℤ} (hb : encoderState b w = gray p) : Agrees w (start config b p) := by
  have hdirection : WiredTo w (drvQuadEncoderInit config b).config := by
    rw [drvQuadEncoderInit]
    dsimp only
    split <;> exact hwired
  refine ⟨hb, by simp [start, bspEncoderInit], by simp [start, bspEncoderInit],
    by simp [start], by simp [start], hdirection, ?_, by simp [start, drvQuadEncoderInit]⟩
  exact (readState_of_wiredTo hdirection b).trans hb

theorem agrees_decode {s : Session} (h : Agrees w s) {b : Board} {p : ℤ}
    (hcode : encoderState b w = gray p) (hnear : |p - s.meter.now| ≤ 1) :
    Agrees w (step w s (.decode w b, p)) := by
  have hstep : BspEncoder.decodeStep (s.bsp.lastState w) (encoderState b w) =
      p - s.meter.now := by
    rw [h.lastState, hcode]
    exact BspEncoder.decodeStep_exactOnSteps _ _ hnear
  have hdrv : DrvQuadEncoder.decodeStep s.drv.lastState
      (DrvQuadEncoder.readState s.drv.config b) = p - s.meter.now := by
    rw [h.drvLastState, readState_of_wiredTo h.wired, hcode]
    exact DrvQuadEncoder.decodeStep_exactOnSteps _ _ hnear
  have htotal := h.total
  have hunreported := h.unreported
  -- both decoders have counted the same displacement, one of them times its direction
  simp only [step, if_true]
  refine ⟨?_, ?_, ?_, h.returned, h.totals, h.wired, ?_, ?_⟩
  · simpa [BspEncoder.decode] using hcode
  · simp only [BspEncoder.decode, Function.update_self, hstep, Meter.travelled_moveTo]
    omega
  · simp only [BspEncoder.decode, Function.update_self, hstep, Meter.remainder_moveTo]
    omega
  · simpa [drvQuadEncoderPoll, readState_of_wiredTo h.wired] using hcode
  · simp only [drvQuadEncoderPoll, hdrv, h.drvTotal, Meter.travelled_moveTo]
    ring

theorem agrees_getDelta {s : Session} (h : Agrees w s) {ch : ℕ} {p : ℤ}
    (hch : encoderChannel ch = w)
    (hlo : -2 ^ 31 ≤ s.bsp.total w - s.bsp.reported w)
    (hhi : s.bsp.total w - s.bsp.reported w < 2 ^ 31) :
    Agrees w (step w s (.getDelta ch, p)) := by
  subst hch
  -- the delta fits, so the cast to `int32_t` returns all of what is unreported
  have hdelta := toInt32_of_mem hlo hhi
  simp only [step, if_true]
  refine ⟨h.lastState, h.total, ?_, ?_, h.totals, h.wired, h.drvLastState, h.drvTotal⟩
  · simp [bspEncoderGetDelta]
  · simp only [bspEncoderGetDelta]
    rw [hdelta, h.unreported, h.returned, Meter.handedOut_take]

/-- What `BSP_Encoder_GetTotal` returns is the true displacement. -/
theorem bspEncoderGetTotal_of_agrees {s : Session} (h : Agrees w s) {ch : ℕ}
    (hch : encoderChannel ch = w) :
    bspEncoderGetTotal ch s.bsp = s.meter.now - s.meter.origin := by
  rw [bspEncoderGetTotal, hch, h.total, Meter.travelled]

theorem agrees_getTotal {s : Session} (h : Agrees w s) {ch : ℕ} {p : ℤ}
    (hch : encoderChannel ch = w) : Agrees w (step w s (.getTotal ch, p)) := by
  rw [step, if_pos hch]
  refine ⟨h.lastState, h.total, h.unreported, h.returned, ?_, h.wired, h.drvLastState, h.drvTotal⟩
  intro t ht
  rcases List.mem_append.mp ht with ht | ht
  · exact h.totals t ht
  · rw [List.mem_singleton.mp ht]
    exact bspEncoderGetTotal_of_agrees h hch

theorem agrees_reset {s : Session} (h : Agrees w s) {ch : ℕ} {b : Board} {p : ℤ}
    (hch : encoderChannel ch = w) (hcode : encoderState b w = gray p) :
    Agrees w (step w s (.reset ch b, p)) := by
  subst hch
  simp only [step, if_true]
  refine ⟨?_, ?_, ?_, by simp, h.totals, h.wired, ?_, ?_⟩
  · simpa [bspEncoderReset] using hcode
  · simp [bspEncoderReset]
  · simp [bspEncoderReset]
  · simpa [drvQuadEncoderReset, readState_of_wiredTo h.wired] using hcode
  · simp [drvQuadEncoderReset]

/-- A call about the other wheel changes none of this wheel's counters. -/
theorem agrees_of_counters_eq {s s' : Session} (h : Agrees w s) (hdrv : s'.drv = s.drv)
    (hreturned : s'.returned = s.returned) (htotals : s'.totals = s.totals)
    (hmeter : s'.meter = s.meter)
    (hlast : s'.bsp.lastState w = s.bsp.lastState w) (htotal : s'.bsp.total w = s.bsp.total w)
    (hreported : s'.bsp.reported w = s.bsp.reported w) : Agrees w s' := by
  refine ⟨?_, ?_, ?_, ?_, ?_, ?_, ?_, ?_⟩
  · rw [hlast, hmeter, h.lastState]
  · rw [htotal, hmeter, h.total]
  · rw [htotal, hreported, hmeter, h.unreported]
  · rw [hreturned, hmeter, h.returned]
  · rw [htotals]
    exact h.totals
  · rw [hdrv]
    exact h.wired
  · rw [hdrv, hmeter, h.drvLastState]
  · rw [hdrv, hmeter, h.drvTotal]

theorem agrees_step {s : Session} (h : Agrees w s) {e : EncoderCall × ℤ} (he : Explains w s e) :
    Agrees w (step w s e) := by
  obtain ⟨call, p⟩ := e
  cases call with
  | decode w' b =>
      by_cases hw : w' = w
      · subst hw
        exact agrees_decode h (he rfl).1 (he rfl).2
      · refine agrees_of_counters_eq h ?_ ?_ ?_ ?_ ?_ ?_ ?_ <;>
          simp [step, BspEncoder.decode, hw, Ne.symm hw]
  | getDelta ch =>
      by_cases hch : encoderChannel ch = w
      · exact agrees_getDelta h hch (he hch).1 (he hch).2
      · refine agrees_of_counters_eq h ?_ ?_ ?_ ?_ ?_ ?_ ?_ <;>
          simp [step, bspEncoderGetDelta, hch, Ne.symm hch]
  | getTotal ch =>
      by_cases hch : encoderChannel ch = w
      · exact agrees_getTotal h hch
      · rw [step, if_neg hch]
        exact h
  | poll b =>
      obtain ⟨hlast, htotal, hreported⟩ := counters_bspEncoderPoll b s.bsp
      refine agrees_of_counters_eq h rfl rfl rfl rfl ?_ ?_ ?_ <;>
        simp [step, hlast, htotal, hreported]
  | reset ch b =>
      by_cases hch : encoderChannel ch = w
      · exact agrees_reset h hch (he hch)
      · refine agrees_of_counters_eq h ?_ ?_ ?_ ?_ ?_ ?_ ?_ <;>
          simp [step, bspEncoderReset, hch, Ne.symm hch]

/-- For every run and every position sequence that explains its samples: the
total that `BSP_Encoder_GetTotal` returns is the displacement since the last
reset, at the end as at every call in the run; deltas returned and remainder add
up to it; and the platform decoder shows it times its direction. -/
theorem counts_exact_and_conserved (w : Wheel) (ch : ℕ) (hch : encoderChannel ch = w)
    (config : DrvQuadEncoderConfig) (hwired : WiredTo w config) (b : Board) (p : ℤ)
    (hb : encoderState b w = gray p) (run : List (EncoderCall × ℤ))
    (hrun : EachStep (step w) (Explains w) (start config b p) run) :
    let s := exec (step w) (start config b p) run
    bspEncoderGetTotal ch s.bsp = s.meter.now - s.meter.origin ∧
      (∀ t ∈ s.totals, t.1 = t.2) ∧
      s.returned + (s.bsp.total w - s.bsp.reported w) = bspEncoderGetTotal ch s.bsp ∧
      drvQuadEncoderGetTotal s.drv = s.drv.config.direction * bspEncoderGetTotal ch s.bsp := by
  have h : Agrees w (exec (step w) (start config b p) run) :=
    hrun.invariant (fun _ _ h he => agrees_step h he) (agrees_start hwired hb)
  have htotal := bspEncoderGetTotal_of_agrees h hch
  refine ⟨htotal, h.totals, ?_, ?_⟩
  · rw [htotal, h.returned, h.unreported]
    exact Meter.handedOut_add_remainder _
  · rw [htotal, drvQuadEncoderGetTotal, h.drvTotal, Meter.travelled]

/-- A board whose left encoder shows position `p`. -/
def boardAt (p : ℤ) : Board :=
  { Board.atReset with
    input := fun pin =>
      if pin = encPhaseA .left then (gray p).testBit 1
      else if pin = encPhaseB .left then (gray p).testBit 0 else false }

/-- Two steps backward from position 5, a delta and a total read in between: the
total is then `-1`, and `-2` at the end. -/
theorem counts_two_steps_back :
    let s := exec (step .left) (start (sMotorConfig .left).encoder (boardAt 5) 5)
      [(.decode .left (boardAt 4), 4), (.getDelta 0, 4), (.getTotal 0, 4),
        (.decode .left (boardAt 3), 3)]
    s.totals = [(-1, -1)] ∧ bspEncoderGetTotal 0 s.bsp = -2 ∧
      s.returned + (s.bsp.total .left - s.bsp.reported .left) = -2 ∧
      drvQuadEncoderGetTotal s.drv = s.drv.config.direction * -2 := by
  have h := counts_exact_and_conserved .left 0 rfl (sMotorConfig .left).encoder ⟨rfl, rfl⟩
    (boardAt 5) 5 (by decide)
    [(.decode .left (boardAt 4), 4), (.getDelta 0, 4), (.getTotal 0, 4),
      (.decode .left (boardAt 3), 3)]
    ⟨fun _ => ⟨by decide, by decide⟩, fun _ => ⟨by decide, by decide⟩, trivial,
      fun _ => ⟨by decide, by decide⟩, trivial⟩
  obtain ⟨htotal, -, hconserved, hdrv⟩ := h
  have htwo : bspEncoderGetTotal 0 _ = -2 := htotal.trans (by decide)
  rw [htwo] at hconserved hdrv
  exact ⟨by decide, htwo, hconserved, hdrv⟩

end NuedcFirmware.Modules.EncoderCount
