import NuedcFirmware.Lib.Run
import NuedcFirmware.Modules.Encoder

/-!
Pin changes between the steps of `GROUP1_IRQHandler`.

A change of a phase pin sets that pin's status bit. The handler latches the
pending bits, samples and decodes the left and then the right wheel, and clears
the latched bits last. A latched pin that changes again after its wheel has been
sampled sets a bit that is set already, and the handler clears it: the edge is
forgotten. The theorem of this module says that this is the only way to miss
one.
-/

namespace NuedcFirmware.Modules.EncoderIrq

open NuedcFirmware.Lib NuedcFirmware.Platform

/-- Where the handler stands, with the bits it has latched. -/
inductive Phase
  | idle
  | latched (pending : Pin → Bool)
  | leftDone (pending : Pin → Bool)
  | rightDone (pending : Pin → Bool)

structure Machine where
  board : Board
  encoder : BspEncoder
  phase : Phase

inductive Event
  | pinChange (p : Pin)
  | handler

/-- An edge at an input pin. -/
def changePin (p : Pin) (b : Board) : Board :=
  { b with
    input := Function.update b.input p (!b.input p)
    edgeStatus := Function.update b.edgeStatus p true }

def step (s : Machine) : Event → Machine
  | .pinChange p => { s with board := changePin p s.board }
  | .handler =>
      match s.phase with
      | .idle => { s with phase := .latched (group1Pending s.board) }
      | .latched pending =>
          { s with encoder := group1Service .left pending s.board s.encoder
                   phase := .leftDone pending }
      | .leftDone pending =>
          { s with encoder := group1Service .right pending s.board s.encoder
                   phase := .rightDone pending }
      | .rightDone pending => { s with board := group1Clear pending s.board, phase := .idle }

/-- After `BSP_Encoder_Init`, which samples the pins and clears their bits. -/
def start (b : Board) : Machine where
  board := group1Clear encoderPin b
  encoder := bspEncoderInit b
  phase := .idle

/-- The handler undisturbed is `GROUP1_IRQHandler`. -/
theorem exec_handler (s : Machine) (h : s.phase = .idle) :
    exec step s [.handler, .handler, .handler, .handler] =
      { board := (group1IrqHandler s.encoder s.board).2
        encoder := (group1IrqHandler s.encoder s.board).1
        phase := .idle } := by
  obtain ⟨board, encoder, phase⟩ := s
  subst h
  rfl

/-- Whenever the handler is not running and no bit of a wheel is pending, the
decoder's last state of the wheel is its actual pin state. -/
def NoMissedEdge (s : Machine) : Prop :=
  s.phase = .idle → ∀ w, s.board.edgeStatus (encPhaseA w) = false →
    s.board.edgeStatus (encPhaseB w) = false →
      s.encoder.lastState w = encoderState s.board w

/-- The levels the decoder last sampled for a wheel. -/
def sampledA (s : Machine) (w : Wheel) : Bool := (s.encoder.lastState w).testBit 1
def sampledB (s : Machine) (w : Wheel) : Bool := (s.encoder.lastState w).testBit 0

/-- At the moment the handler clears the latched bits: every latched pin of the
wheel has the level that was sampled, or a pin of the wheel that was not latched
has its bit set, which the clearing leaves pending. -/
def LatchedEdgesKept (s : Machine) (e : Event) : Prop :=
  ∀ pending, s.phase = .rightDone pending → (∃ p, e = .pinChange p) ∨ ∀ w,
    ((pending (encPhaseA w) = true → s.board.input (encPhaseA w) = sampledA s w) ∧
      (pending (encPhaseB w) = true → s.board.input (encPhaseB w) = sampledB s w)) ∨
    (pending (encPhaseA w) = false ∧ s.board.edgeStatus (encPhaseA w) = true) ∨
    (pending (encPhaseB w) = false ∧ s.board.edgeStatus (encPhaseB w) = true)

/-! ### Samples -/

theorem testBit_one_encoderState (b : Board) (w : Wheel) :
    (encoderState b w).testBit 1 = b.input (encPhaseA w) := by
  rw [encoderState]
  cases b.input (encPhaseA w) <;> cases b.input (encPhaseB w) <;> rfl

theorem testBit_zero_encoderState (b : Board) (w : Wheel) :
    (encoderState b w).testBit 0 = b.input (encPhaseB w) := by
  rw [encoderState]
  cases b.input (encPhaseA w) <;> cases b.input (encPhaseB w) <;> rfl

theorem encoderState_lt (b : Board) (w : Wheel) : encoderState b w < 4 := by
  rw [encoderState]
  cases b.input (encPhaseA w) <;> cases b.input (encPhaseB w) <;> decide

/-- Two bits are all there is to a state. -/
theorem eq_encoderState {n : ℕ} (hn : n < 4) {b : Board} {w : Wheel}
    (ha : b.input (encPhaseA w) = n.testBit 1) (hb : b.input (encPhaseB w) = n.testBit 0) :
    n = encoderState b w := by
  rw [encoderState, ha, hb]
  have : n = 0 ∨ n = 1 ∨ n = 2 ∨ n = 3 := by omega
  rcases this with rfl | rfl | rfl | rfl <;> rfl

/-! ### The invariant -/

/-- Every pin of the wheel whose level is not the sampled one has its bit set. -/
def Tracked (s : Machine) (w : Wheel) : Prop :=
  (s.board.input (encPhaseA w) ≠ sampledA s w → s.board.edgeStatus (encPhaseA w) = true) ∧
    (s.board.input (encPhaseB w) ≠ sampledB s w → s.board.edgeStatus (encPhaseB w) = true)

/-- With no bit of the wheel set, both levels are the sampled ones. -/
def Settled (s : Machine) (w : Wheel) : Prop :=
  s.board.edgeStatus (encPhaseA w) = false → s.board.edgeStatus (encPhaseB w) = false →
    s.board.input (encPhaseA w) = sampledA s w ∧ s.board.input (encPhaseB w) = sampledB s w

/-- What holds of a wheel at each point of the handler: a wheel that is not
pending, or has been sampled since the latch, is tracked. -/
def PhaseInv (s : Machine) (w : Wheel) : Prop :=
  match s.phase with
  | .idle => Settled s w
  | .latched pending => wheelPending pending w = false → Tracked s w
  | .leftDone pending => w = .left ∨ wheelPending pending w = false → Tracked s w
  | .rightDone _ => Tracked s w

structure Inv (s : Machine) : Prop where
  lastState_lt : ∀ w, s.encoder.lastState w < 4
  phase : ∀ w, PhaseInv s w

theorem Inv.noMissedEdge {s : Machine} (h : Inv s) : NoMissedEdge s := by
  intro hidle w ha hb
  have hw := h.phase w
  simp only [PhaseInv, hidle] at hw
  obtain ⟨hlevelA, hlevelB⟩ := hw ha hb
  exact eq_encoderState (h.lastState_lt w) hlevelA hlevelB

theorem tracked_changePin {s : Machine} {w : Wheel} (h : Tracked s w) (p : Pin) :
    Tracked { s with board := changePin p s.board } w := by
  refine ⟨?_, ?_⟩
  · by_cases hp : encPhaseA w = p
    · simp [changePin, hp]
    · simpa [changePin, sampledA, hp] using h.1
  · by_cases hp : encPhaseB w = p
    · simp [changePin, hp]
    · simpa [changePin, sampledB, hp] using h.2

theorem settled_changePin {s : Machine} {w : Wheel} (h : Settled s w) (p : Pin) :
    Settled { s with board := changePin p s.board } w := by
  intro ha hb
  have hpa : encPhaseA w ≠ p := by
    rintro rfl
    simp [changePin] at ha
  have hpb : encPhaseB w ≠ p := by
    rintro rfl
    simp [changePin] at hb
  simp only [changePin, Function.update_of_ne hpa] at ha
  simp only [changePin, Function.update_of_ne hpb] at hb
  simpa [changePin, Function.update_of_ne hpa, Function.update_of_ne hpb, sampledA, sampledB]
    using h ha hb

/-- Latching: a wheel without a latched bit has no bit set at all. -/
theorem tracked_of_not_latched {s : Machine} {w : Wheel} (h : Settled s w)
    (hpending : wheelPending (group1Pending s.board) w = false) : Tracked s w := by
  have hpins : encoderPin (encPhaseA w) = true ∧ encoderPin (encPhaseB w) = true := by
    cases w <;> decide
  simp only [wheelPending, group1Pending, hpins, Bool.true_and, Bool.or_eq_false_iff] at hpending
  obtain ⟨ha, hb⟩ := h hpending.1 hpending.2
  exact ⟨fun hne => absurd ha hne, fun hne => absurd hb hne⟩

/-- Sampling a pending wheel makes its last state the levels of this moment. -/
theorem tracked_service (b : Board) (encoder : BspEncoder) (phase : Phase) (w : Wheel)
    (pending : Pin → Bool)
    (h : wheelPending pending w = false → Tracked ⟨b, encoder, phase⟩ w) :
    Tracked ⟨b, group1Service w pending b encoder, phase⟩ w := by
  rw [group1Service]
  split
  · have hlast : (encoder.decode w b).lastState w = encoderState b w := by
      simp [BspEncoder.decode]
    refine ⟨?_, ?_⟩
    · rw [sampledA, hlast, testBit_one_encoderState]
      exact fun hne => absurd rfl hne
    · rw [sampledB, hlast, testBit_zero_encoderState]
      exact fun hne => absurd rfl hne
  case isFalse hpending => exact h (by simpa using hpending)

/-- Sampling one wheel does not touch the other. -/
theorem lastState_group1Service_of_ne {w w' : Wheel} (hw : w' ≠ w) (pending : Pin → Bool)
    (b : Board) (encoder : BspEncoder) :
    (group1Service w pending b encoder).lastState w' = encoder.lastState w' := by
  rw [group1Service]
  split
  · simp [BspEncoder.decode, hw]
  · rfl

theorem lastState_group1Service_lt {encoder : BspEncoder}
    (h : ∀ w, encoder.lastState w < 4) (w : Wheel) (pending : Pin → Bool) (b : Board)
    (w' : Wheel) : (group1Service w pending b encoder).lastState w' < 4 := by
  by_cases hw : w' = w
  · subst hw
    rw [group1Service]
    split
    · simpa [BspEncoder.decode] using encoderState_lt b w'
    · exact h w'
  · rw [lastState_group1Service_of_ne hw]
    exact h w'

theorem tracked_congr {s s' : Machine} {w : Wheel} (h : Tracked s w) (hboard : s'.board = s.board)
    (hlast : s'.encoder.lastState w = s.encoder.lastState w) : Tracked s' w := by
  simpa [Tracked, sampledA, sampledB, hboard, hlast] using h

/-- Clearing: what the latched bits hide is what the condition excludes. -/
theorem settled_clear {s : Machine} {w : Wheel} {pending : Pin → Bool} (h : Tracked s w)
    (hkept : ((pending (encPhaseA w) = true → s.board.input (encPhaseA w) = sampledA s w) ∧
        (pending (encPhaseB w) = true → s.board.input (encPhaseB w) = sampledB s w)) ∨
      (pending (encPhaseA w) = false ∧ s.board.edgeStatus (encPhaseA w) = true) ∨
      (pending (encPhaseB w) = false ∧ s.board.edgeStatus (encPhaseB w) = true)) :
    Settled { s with board := group1Clear pending s.board, phase := .idle } w := by
  intro ha hb
  simp only [group1Clear, Bool.and_eq_false_imp, Bool.not_eq_false'] at ha hb
  rcases hkept with ⟨hkeptA, hkeptB⟩ | ⟨hfree, hset⟩ | ⟨hfree, hset⟩
  · -- a level that differs has its bit set, the clearing has removed it, so it was latched
    refine ⟨?_, ?_⟩
    · by_contra hne
      exact hne (hkeptA (ha (h.1 hne)))
    · by_contra hne
      exact hne (hkeptB (hb (h.2 hne)))
  -- a bit that was not latched is still set, and the wheel is pending
  · simp [ha hset] at hfree
  · simp [hb hset] at hfree

theorem inv_start (b : Board) : Inv (start b) where
  lastState_lt w := encoderState_lt b w
  phase w := by
    intro _ _
    exact ⟨(testBit_one_encoderState b w).symm, (testBit_zero_encoderState b w).symm⟩

theorem inv_step {s : Machine} {e : Event} (h : Inv s) (hkept : LatchedEdgesKept s e) :
    Inv (step s e) := by
  obtain ⟨board, encoder, phase⟩ := s
  cases e with
  | pinChange p =>
      refine ⟨h.lastState_lt, fun w => ?_⟩
      have hw := h.phase w
      cases phase with
      | idle => exact settled_changePin hw p
      | latched pending => exact fun hpending => tracked_changePin (hw hpending) p
      | leftDone pending => exact fun hpending => tracked_changePin (hw hpending) p
      | rightDone pending => exact tracked_changePin hw p
  | handler =>
      -- the wheels are served one after the other: each service is a frame for the other wheel
      cases phase with
      | idle => exact ⟨h.lastState_lt, fun w => tracked_of_not_latched (h.phase w)⟩
      | latched pending =>
          refine ⟨lastState_group1Service_lt h.lastState_lt .left pending board, fun w => ?_⟩
          cases w with
          | left => exact fun _ => tracked_service board encoder _ .left pending (h.phase .left)
          | right =>
              rintro (hw | hpending)
              · cases hw
              · exact tracked_congr (h.phase .right hpending) rfl
                  (lastState_group1Service_of_ne (by decide) ..)
      | leftDone pending =>
          refine ⟨lastState_group1Service_lt h.lastState_lt .right pending board, fun w => ?_⟩
          cases w with
          | left =>
              exact tracked_congr (h.phase .left (Or.inl rfl)) rfl
                (lastState_group1Service_of_ne (by decide) ..)
          | right =>
              exact tracked_service board encoder _ .right pending
                fun hpending => h.phase .right (Or.inr hpending)
      | rightDone pending =>
          refine ⟨h.lastState_lt, fun w => settled_clear (h.phase w) ?_⟩
          rcases hkept pending rfl with ⟨p, hp⟩ | hkept
          · cases hp
          · exact hkept w

/-- A clearing step that forgets an edge leaves a state that has missed it. -/
theorem latchedEdgesKept_of_noMissedEdge {s : Machine} {e : Event}
    (h : NoMissedEdge (step s e)) : LatchedEdgesKept s e := by
  intro pending hphase
  cases e with
  | pinChange p => exact Or.inl ⟨p, rfl⟩
  | handler =>
      refine Or.inr fun w => ?_
      by_contra hlost
      push Not at hlost
      obtain ⟨hchanged, hfreeA, hfreeB⟩ := hlost
      simp only [step, hphase, NoMissedEdge, forall_const] at h
      -- after the clearing no bit of the wheel is set, so the decoder must have the levels
      have hclear (p : Pin) (hp : pending p = false → s.board.edgeStatus p ≠ true) :
          (group1Clear pending s.board).edgeStatus p = false := by
        cases hpending : pending p with
        | false => simpa [group1Clear, hpending] using hp hpending
        | true => simp [group1Clear, hpending]
      have hstate := h w (hclear _ hfreeA) (hclear _ hfreeB)
      have hlevelA : s.board.input (encPhaseA w) = sampledA s w := by
        rw [sampledA, hstate, testBit_one_encoderState]
        rfl
      have hlevelB : s.board.input (encPhaseB w) = sampledB s w := by
        rw [sampledB, hstate, testBit_zero_encoderState]
        rfl
      exact (hchanged fun _ => hlevelA).2 hlevelB

/-- For every order of pin changes and handler steps: no edge is ever missed if
and only if, each time the handler clears the latched bits, the edges behind them
have been sampled. -/
theorem noMissedEdge_iff (b : Board) (run : List Event) :
    EachState step NoMissedEdge (start b) run ↔ EachStep step LatchedEdgesKept (start b) run := by
  rw [eachState_iff_eachStep]
  have hiff (s : Machine) (e : Event) (h : Inv s) :
      NoMissedEdge (step s e) ↔ LatchedEdgesKept s e :=
    ⟨latchedEdgesKept_of_noMissedEdge, fun hkept => (inv_step h hkept).noMissedEdge⟩
  rw [eachStep_congr (fun _ _ h hkept => inv_step h hkept) hiff (inv_start b)]
  exact and_iff_right (inv_start b).noMissedEdge

/-- The left wheel moves one edge, the handler samples it, and the same pin moves
back before the handler clears: the decoder has missed that edge. -/
theorem edge_missed :
    ¬ EachState step NoMissedEdge (start Board.atReset)
      [.pinChange (encPhaseA .left), .handler, .handler, .pinChange (encPhaseA .left),
        .handler, .handler] := by
  intro h
  have hlast := h _ [] (List.append_nil _).symm rfl .left rfl rfl
  exact absurd hlast (by decide)

end NuedcFirmware.Modules.EncoderIrq
