import NuedcFirmware.Modules.LinePosition
import Mathlib.Data.List.Chain

/-!
The line position follows the line.

A frame has moved to the right of another one when, from every channel on, its share of
the profile is no smaller. The raw bias then is no smaller either, being the centre of
the profile. The filter starts at the first raw bias and has not overtaken its newest
input since, so it follows such a sequence of frames to the right, and a sequence that
moves left to the left. Both directions are one argument, made for a preorder that the
filter respects (`isChain_bias`).
-/

namespace NuedcFirmware.Modules.LineMonotone

open NuedcFirmware.Lib NuedcFirmware.Platform
open DevLineSensor

section Frames

variable {F : Type*} [CFloat F]

/-- The frames of a sequence of updates. -/
def frames (sensor : DevLineSensor F) : List Board → List (DevLineSensorFrame F)
  | [] => []
  | b :: boards =>
      (devLineSensorUpdate sensor b).frame :: frames (devLineSensorUpdate sensor b) boards

end Frames

/-- The share of the profile from channel `k` on. -/
noncomputable def shareFrom (frame : DevLineSensorFrame ℝ) (k : ℕ) : ℝ :=
  share frame.count (fun i => (frame.profile i : ℝ)) k

/-- The profile has moved right from `f` to `g`. -/
def MovesRight (f g : DevLineSensorFrame ℝ) : Prop := ∀ k, shareFrom f k ≤ shareFrom g k

/-- The profile has moved left from `f` to `g`. -/
def MovesLeft (f g : DevLineSensorFrame ℝ) : Prop := MovesRight g f

/-! ### One update -/

/-- An update on the line passes the raw bias of its frame through the filter. -/
theorem update_of_onLine {sensor : DevLineSensor ℝ} {b : Board}
    (hcount : 1 < getCount sensor.config)
    (honline : (devLineSensorUpdate sensor b).frame.onLine = true) :
    (devLineSensorUpdate sensor b).frame.Divides ∧
      (devLineSensorUpdate sensor b).frame.count = getCount sensor.config ∧
      (devLineSensorUpdate sensor b).frame.bias =
        sensor.filterBias (devLineSensorUpdate sensor b).frame.rawBias ∧
      (devLineSensorUpdate sensor b).biasPrimed = true := by
  rw [devLineSensorUpdate_eq sensor b hcount.ne_bot] at honline ⊢
  have hsample : (sensor.sample b).onLine = true := by
    split_ifs at honline
    · exact honline
    · exact honline
  have hdivides : (sensor.sample b).Divides := divides_of_onLine hcount hsample
  rw [if_pos hdivides]
  exact ⟨hdivides, rfl, rfl, rfl⟩

theorem rawBias_le_rawBias {f g : DevLineSensorFrame ℝ} (hf : f.Divides) (hg : g.Divides)
    (hcount : f.count = g.count) (h : MovesRight f g) : f.rawBias ≤ g.rawBias := by
  rw [rawBias_eq_centre hf.2.2, rawBias_eq_centre hg.2.2]
  simp only [MovesRight, shareFrom, hcount] at h ⊢
  exact centre_le_centre hg.2.2 (hcount ▸ (mass_pos hf).ne') (mass_pos hg).ne' h

/-! ### A sequence of updates -/

section Chain

variable {r : ℝ → ℝ → Prop} [IsPreorder ℝ r]
  {Moves : DevLineSensorFrame ℝ → DevLineSensorFrame ℝ → Prop}
  (hfilter : ∀ α x y : ℝ, 0 ≤ α → α ≤ 1 → r y x → r y (smooth α x y) ∧ r (smooth α x y) x)
  (hraw : ∀ f g : DevLineSensorFrame ℝ, f.Divides → g.Divides → f.count = g.count → Moves f g →
    r f.rawBias g.rawBias)
include hfilter hraw

/-- A primed filter behind its newest input `f` follows the frames. -/
theorem isChain_bias_of_primed {sensor : DevLineSensor ℝ} (hcount : 1 < getCount sensor.config)
    (hprimed : sensor.biasPrimed = true) (hdivides : sensor.frame.Divides)
    (hframe : sensor.frame.count = getCount sensor.config)
    (hbehind : r sensor.frame.bias sensor.frame.rawBias) (boards : List Board)
    (honline : ∀ f ∈ frames sensor boards, f.onLine = true)
    (hmoves : (sensor.frame :: frames sensor boards).IsChain Moves) :
    (sensor.frame :: frames sensor boards).IsChain fun f g => r f.bias g.bias := by
  induction boards generalizing sensor with
  | nil => exact List.isChain_singleton _
  | cons b boards ih =>
      rw [frames, List.isChain_cons_cons] at hmoves ⊢
      obtain ⟨hmove, hmoves⟩ := hmoves
      have hhere := honline _ List.mem_cons_self
      obtain ⟨hdivides', hcount', hbias, hprimed'⟩ := update_of_onLine hcount hhere
      have hinput : r sensor.frame.bias (devLineSensorUpdate sensor b).frame.rawBias :=
        trans_of r hbehind (hraw _ _ hdivides hdivides' (hframe.trans hcount'.symm) hmove)
      obtain ⟨hpos, hle⟩ := getAlpha_mem sensor.config
      rw [filterBias_of_primed hprimed] at hbias
      obtain ⟨hforward, hbehind'⟩ := hfilter _ _ _ hpos.le hle hinput
      rw [← hbias] at hforward hbehind'
      have hconfig := config_devLineSensorUpdate sensor b
      rw [← hconfig] at hcount hcount'
      exact ⟨hforward, ih hcount hprimed' hdivides' hcount' hbehind'
        (fun f hf => honline f (List.mem_cons_of_mem _ hf)) hmoves⟩

theorem isChain_bias {sensor : DevLineSensor ℝ} (hcount : 1 < getCount sensor.config)
    (boards : List Board)
    (honline : ∀ f ∈ frames (devLineSensorReset sensor) boards, f.onLine = true)
    (hmoves : (frames (devLineSensorReset sensor) boards).IsChain Moves) :
    (frames (devLineSensorReset sensor) boards).IsChain fun f g => r f.bias g.bias := by
  cases boards with
  | nil => exact List.IsChain.nil
  | cons b boards =>
      -- the first frame primes the filter with its raw bias
      have hreset : 1 < getCount (devLineSensorReset sensor).config := hcount
      have hhere := honline _ List.mem_cons_self
      obtain ⟨hdivides, hcount', hbias, hprimed⟩ := update_of_onLine hreset hhere
      have hunprimed : (devLineSensorReset sensor).biasPrimed = false := rfl
      rw [filterBias_of_unprimed hunprimed] at hbias
      have hbehind : r (devLineSensorUpdate (devLineSensorReset sensor) b).frame.bias
          (devLineSensorUpdate (devLineSensorReset sensor) b).frame.rawBias := by
        rw [hbias]
        exact refl_of r _
      have hconfig := config_devLineSensorUpdate (devLineSensorReset sensor) b
      rw [← hconfig] at hreset hcount'
      exact isChain_bias_of_primed hfilter hraw hreset hprimed hdivides hcount' hbehind boards
        (fun f hf => honline f (List.mem_cons_of_mem _ hf)) hmoves

end Chain

/-- In exact arithmetic, for every sensor with two channels or more and every sequence of
frames on the line after a reset: the filtered bias never decreases while the profile
moves right, and never increases while it moves left. -/
theorem bias_follows_line (sensor : DevLineSensor ℝ) (hcount : 2 ≤ getCount sensor.config)
    (boards : List Board)
    (honline : ∀ f ∈ frames (devLineSensorReset sensor) boards, f.onLine = true) :
    ((frames (devLineSensorReset sensor) boards).IsChain MovesRight →
        (frames (devLineSensorReset sensor) boards).IsChain fun f g => f.bias ≤ g.bias) ∧
      ((frames (devLineSensorReset sensor) boards).IsChain MovesLeft →
        (frames (devLineSensorReset sensor) boards).IsChain fun f g => g.bias ≤ f.bias) := by
  refine ⟨?_, ?_⟩
  · exact isChain_bias (r := (· ≤ ·)) (fun α x y h0 h1 h => smooth_mem_of_le h0 h1 h)
      (fun f g hf hg hn h => rawBias_le_rawBias hf hg hn h) hcount boards honline
  · refine isChain_bias (r := (· ≥ ·)) (fun α x y h0 h1 h => ?_)
      (fun f g hf hg hn h => rawBias_le_rawBias hg hf hn.symm h) hcount boards honline
    exact (smooth_mem_of_ge h0 h1 h).symm

/-- Two channels, of which the left one is bright at time 0 and the right one later. -/
noncomputable def pair : DevLineSensor ℝ :=
  devLineSensorInit
    { array := none
      readRaw := some fun b _ => if b.gTickMs = 0 then [300, 0] else [0, 300]
      count := 2
      contrastThreshold := 0
      strengthThreshold := 0
      biasAlpha := 0.5 }

theorem pair_follows_line :
    (frames (devLineSensorReset pair)
      [Board.atReset, { Board.atReset with gTickMs := 10 }]).IsChain fun f g => f.bias ≤ g.bias := by
  refine (bias_follows_line pair (by decide) _ fun f hf => ?_).1 ?_
  · simp only [frames, List.mem_cons, List.not_mem_nil, or_false] at hf
    rcases hf with rfl | rfl <;> rfl
  · refine List.isChain_cons_cons.mpr ⟨fun k => ?_, List.isChain_singleton _⟩
    show share 2 (fun i => (([300, 0, 0, 0, 0, 0, 0, 0].getD i 0 - 0 : ℕ) : ℝ)) k ≤
      share 2 (fun i => (([0, 300, 0, 0, 0, 0, 0, 0].getD i 0 - 0 : ℕ) : ℝ)) k
    rcases k with _ | _ | k
    · simp [share, tail, mass, Finset.sum_range_succ]
    · simp [share, tail, mass, Finset.sum_range_succ]
    · simp [share, tail]

end NuedcFirmware.Modules.LineMonotone
