import Mathlib.Data.List.GetD
import NuedcFirmware.Modules.Ssd1306

/-!
What the display shows.

The display is its memory, one byte for eight pixels of a column, and the place the next
data byte goes to. It is in page addressing mode, where data bytes fill one page from the
left to the right. A packet is interpreted by its control byte.

`Shows` follows a driver call down to the memory: which packets it sends, and what they do
to a display.
-/

namespace NuedcFirmware.Modules.Ssd1306

open NuedcFirmware.Lib NuedcFirmware.Platform

/-! ### The display -/

@[ext]
structure Display where
  gddram : BitVec 3 → BitVec 7 → UInt8
  page : BitVec 3
  column : BitVec 7

namespace Display

/-- The three commands that set the place: the page, and the column in two parts. What other
commands change is not looked at here. -/
def command (m : Display) (b : UInt8) : Display :=
  if b.toNat / 8 = 0xB0 / 8 then { m with page := .ofNat 3 b.toNat }
  else if b.toNat / 16 = 0x00 / 16 then
    { m with column := .ofNat 7 (m.column.toNat / 16 * 16 + b.toNat % 16) }
  else if b.toNat / 16 = 0x10 / 16 then
    { m with column := .ofNat 7 (b.toNat % 16 * 16 + m.column.toNat % 16) }
  else m

/-- Behind the last column of the page comes its first. -/
def data (m : Display) (b : UInt8) : Display :=
  { m with
    gddram := fun page column =>
      if page = m.page ∧ column = m.column then b else m.gddram page column
    column := m.column + 1 }

def byte (control : UInt8) (m : Display) (b : UInt8) : Display :=
  if control = ssd1306ControlCommand then m.command b
  else if control = ssd1306ControlData then m.data b
  else m

def receive (m : Display) : List UInt8 → Display
  | [] => m
  | control :: bytes => bytes.foldl (byte control) m

/-- The display after some packets. -/
def after (m : Display) (packets : List (List UInt8)) : Display := packets.foldl receive m

theorem after_append (m : Display) (packets packets' : List (List UInt8)) :
    m.after (packets ++ packets') = (m.after packets).after packets' :=
  List.foldl_append ..

/-- The memory with some bytes from the place on. -/
def overwritten (m : Display) (bytes : List UInt8) (page : BitVec 3) (column : BitVec 7) :
    UInt8 :=
  if page = m.page ∧ m.column.toNat ≤ column.toNat ∧
      column.toNat < m.column.toNat + bytes.length then
    bytes.getD (column.toNat - m.column.toNat) 0
  else m.gddram page column

theorem toNat_column_add {m : Display} {n : ℕ} (h : m.column.toNat + n < 128) :
    (m.column + .ofNat 7 n).toNat = m.column.toNat + n := by
  rw [BitVec.toNat_add, BitVec.toNat_ofNat]
  omega

/-- One byte more. -/
theorem overwritten_concat {m : Display} {bytes : List UInt8}
    (h : m.column.toNat + bytes.length < 128) (b : UInt8) (page : BitVec 3) (column : BitVec 7) :
    m.overwritten (bytes ++ [b]) page column =
      if page = m.page ∧ column = m.column + .ofNat 7 bytes.length then b
      else m.overwritten bytes page column := by
  have hcolumn : column = m.column + .ofNat 7 bytes.length ↔
      column.toNat = m.column.toNat + bytes.length := by
    rw [← BitVec.toNat_inj, toNat_column_add h]
  rw [overwritten, overwritten, List.length_append, List.length_singleton]
  by_cases hnew : page = m.page ∧ column = m.column + .ofNat 7 bytes.length
  · have hplace := hcolumn.mp hnew.2
    rw [if_pos hnew, if_pos ⟨hnew.1, by omega, by omega⟩, hplace, Nat.add_sub_cancel_left,
      List.getD_append_right _ _ _ _ le_rfl, Nat.sub_self]
    rfl
  · have hplace : page = m.page → column.toNat ≠ m.column.toNat + bytes.length :=
      fun hpage heq => hnew ⟨hpage, hcolumn.mpr heq⟩
    rw [if_neg hnew]
    by_cases hold : page = m.page ∧ m.column.toNat ≤ column.toNat ∧
        column.toNat < m.column.toNat + bytes.length
    · rw [if_pos hold, if_pos ⟨hold.1, hold.2.1, by omega⟩,
        List.getD_append _ _ _ _ (by omega)]
    · rw [if_neg hold, if_neg fun hin => hold ⟨hin.1, hin.2.1, by
        have := hplace hin.1
        omega⟩]

/-- A run of data bytes that stays on the page. -/
theorem foldl_data {m : Display} {bytes : List UInt8}
    (h : m.column.toNat + bytes.length ≤ 128) :
    bytes.foldl data m =
      { m with
        gddram := m.overwritten bytes
        column := m.column + .ofNat 7 bytes.length } := by
  induction bytes using List.reverseRecOn with
  | nil =>
      refine Display.ext ?_ rfl (BitVec.add_zero _).symm
      funext page column
      refine (if_neg fun hin => ?_).symm
      exact absurd hin.2.2 (Nat.not_lt.mpr hin.2.1)
  | append_singleton bytes b ih =>
      rw [List.length_append, List.length_singleton] at h
      have hlast : m.column.toNat + bytes.length < 128 := h
      rw [List.foldl_concat, ih hlast.le]
      refine Display.ext ?_ rfl ?_
      · funext page column
        exact (overwritten_concat hlast b page column).symm
      · show m.column + .ofNat 7 bytes.length + 1 = _
        rw [List.length_append, List.length_singleton, BitVec.add_assoc, BitVec.ofNat_add]
        rfl

theorem command_page (m : Display) {b : UInt8} {n : ℕ} (hn : n < 8) (hb : b.toNat = 0xB0 + n) :
    m.command b = { m with page := .ofNat 3 n } := by
  have hpage : BitVec.ofNat 3 b.toNat = .ofNat 3 n := by
    apply BitVec.eq_of_toNat_eq
    rw [BitVec.toNat_ofNat, BitVec.toNat_ofNat, hb]
    omega
  rw [command, if_pos (by omega), hpage]

theorem command_low (m : Display) {b : UInt8} {n : ℕ} (hn : n < 16) (hb : b.toNat = n) :
    m.command b = { m with column := .ofNat 7 (m.column.toNat / 16 * 16 + n) } := by
  rw [command, if_neg (by omega), if_pos (by omega), hb, Nat.mod_eq_of_lt hn]

theorem command_high (m : Display) {b : UInt8} {n : ℕ} (hn : n < 16) (hb : b.toNat = 0x10 + n) :
    m.command b = { m with column := .ofNat 7 (n * 16 + m.column.toNat % 16) } := by
  have hnibble : b.toNat % 16 = n := by omega
  rw [command, if_neg (by omega), if_neg (by omega), if_pos (by omega), hnibble]

/-- The three commands that set the cursor. -/
theorem foldl_command (m : Display) (row column : UInt8) (hrow : row.toNat < 8)
    (hcolumn : column.toNat < 128) :
    [0xB0 + row, 0x00 + (column &&& 0x0F), (0x10 : UInt8) + ((column >>> 4) &&& 0x0F)].foldl
        command m =
      { m with page := .ofNat 3 row.toNat, column := .ofNat 7 column.toNat } := by
  have hnibble (b : UInt8) : (b &&& 0x0F).toNat = b.toNat % 16 :=
    (UInt8.toNat_and ..).trans (Nat.and_two_pow_sub_one_eq_mod _ 4)
  have hshift : (column >>> (4 : UInt8)).toNat = column.toNat / 16 :=
    (UInt8.toNat_shiftRight ..).trans (Nat.shiftRight_eq_div_pow _ 4)
  have hpage : (0xB0 + row).toNat = 0xB0 + row.toNat :=
    toNat_add8 (show 0xB0 + _ < 2 ^ 8 by omega)
  have hlow : (0x00 + (column &&& 0x0F)).toNat = column.toNat % 16 := by
    rw [UInt8.zero_add, hnibble]
  have hhigh : ((0x10 : UInt8) + ((column >>> 4) &&& 0x0F)).toNat = 0x10 + column.toNat / 16 := by
    refine (toNat_add8 (show 0x10 + _ < 2 ^ 8 from ?_)).trans (congrArg (0x10 + ·) ?_)
    · rw [hnibble]
      omega
    · rw [hnibble, hshift]
      omega
  rw [List.foldl_cons, List.foldl_cons, List.foldl_cons, List.foldl_nil,
    command_page m hrow hpage, command_low _ (Nat.mod_lt _ (by decide)) hlow,
    command_high _ (by omega) hhigh]
  refine Display.ext rfl rfl (BitVec.eq_of_toNat_eq ?_)
  have hold : m.column.toNat < 2 ^ 7 := m.column.isLt
  simp only [BitVec.toNat_ofNat]
  omega

end Display

/-! ### Packets -/

def IsPacket (packet : List UInt8) : Prop :=
  2 ≤ packet.length ∧ packet.length ≤ 8 ∧
    (packet.head? = some ssd1306ControlCommand ∨ packet.head? = some ssd1306ControlData)

variable {σ α β : Type} {dl : DlI2cController σ} {d : Ssd1306} {sent : σ → List (List UInt8)}

/-- Every packet is written, and reaches the display. -/
def Succeeds (dl : DlI2cController σ) (d : Ssd1306) (sent : σ → List (List UInt8)) : Prop :=
  ∀ packet, IsPacket packet → Emits sent (writePacket dl d packet) true [packet]

/-- The driver ends with the result `a`, all it sends is packets, and they change a display
as `f` does. -/
def Shows (sent : σ → List (List UInt8)) (p : Driver σ α) (a : α) (f : Display → Display) :
    Prop :=
  ∃ packets, Emits sent p a packets ∧ (∀ packet ∈ packets, IsPacket packet) ∧
    ∀ m : Display, m.after packets = f m

theorem shows_pure (a : α) : Shows sent (pure a) a id :=
  ⟨[], emits_pure a, List.forall_mem_nil _, fun _ => rfl⟩

theorem Shows.bind {p : Driver σ α} {q : α → Driver σ β} {a : α} {b : β}
    {f g : Display → Display} (hp : Shows sent p a f) (hq : Shows sent (q a) b g) :
    Shows sent (p >>= q) b (g ∘ f) := by
  obtain ⟨packets, hemits, hpackets, hafter⟩ := hp
  obtain ⟨packets', hemits', hpackets', hafter'⟩ := hq
  refine ⟨packets ++ packets', hemits.bind hemits', ?_, fun m => ?_⟩
  · intro packet hpacket
    rcases List.mem_append.mp hpacket with hpacket | hpacket
    · exact hpackets packet hpacket
    · exact hpackets' packet hpacket
  · rw [Display.after_append, hafter, hafter']
    rfl

theorem Shows.congr {p : Driver σ α} {a : α} {f g : Display → Display} (h : Shows sent p a f)
    (hfg : ∀ m, f m = g m) : Shows sent p a g := by
  obtain rfl : f = g := funext hfg
  exact h

/-- Some of the bytes, from an offset on. -/
def slice (bytes : List UInt8) (offset n : ℕ) : List UInt8 :=
  (List.range n).map fun i => bytes.getD (offset + i) 0

theorem slice_add (bytes : List UInt8) (offset n k : ℕ) :
    slice bytes offset (n + k) = slice bytes offset n ++ slice bytes (offset + n) k := by
  rw [slice, List.range_add, List.map_append, List.map_map]
  simp [slice, Function.comp_def, Nat.add_assoc]

theorem slice_zero {bytes : List UInt8} {n : ℕ} (hn : n ≤ bytes.length) :
    slice bytes 0 n = bytes.take n := by
  refine List.ext_getElem (by simp [slice, hn]) fun i h _ => ?_
  have hi : i < bytes.length := by
    rw [slice, List.length_map, List.length_range] at h
    exact h.trans_le hn
  simp [slice, hi]

/-- The characters of a text that end in a zero byte. -/
structure IsCString (text : BytePtr) (chars : List UInt8) : Prop where
  not_null : text.null = false
  bytes_eq : ∀ i < chars.length, text.bytes i = chars.getD i 0
  ne_zero : ∀ c ∈ chars, c ≠ 0
  ends : text.bytes chars.length = 0

/-- What a row shows from a column on: the text, as far as it fits, and blanks. -/
def cells (chars : List UInt8) (col : ℕ) : List UInt8 :=
  chars.take (ssd1306TextColumns - col) ++
    List.replicate
      (ssd1306TextColumns - col - min chars.length (ssd1306TextColumns - col)) 0x20

theorem length_cells (chars : List UInt8) (col : ℕ) :
    (cells chars col).length = ssd1306TextColumns - col := by
  rw [cells, List.length_append, List.length_take, List.length_replicate]
  omega

theorem getD_cells (chars : List UInt8) {col k : ℕ} (hk : k < ssd1306TextColumns - col) :
    (cells chars col).getD k 0x20 = chars.getD k 0x20 := by
  rw [cells]
  by_cases h : k < chars.length
  · rw [List.getD_append _ _ _ _ (by rw [List.length_take]; omega), List.getD_eq_getElem _ _ h,
      List.getD_eq_getElem _ _ (by rw [List.length_take]; omega), List.getElem_take]
  · rw [List.getD_append_right _ _ _ _ (by rw [List.length_take]; omega),
      List.getD_eq_default _ _ (not_lt.mp h)]
    exact List.getD_replicate _ (by rw [List.length_take]; omega)

@[simp] theorem length_glyph (c : UInt8) : (glyph c).length = 6 := rfl

theorem length_flatMap_glyph (chars : List UInt8) :
    (chars.flatMap glyph).length = 6 * chars.length := by
  induction chars with
  | nil => rfl
  | cons c chars ih =>
      rw [List.flatMap_cons, List.length_append, ih, length_glyph, List.length_cons]
      omega

/-- Six columns for each character. -/
theorem getD_flatMap_glyph {chars : List UInt8} {i : ℕ} (hi : i < 6 * chars.length) :
    (chars.flatMap glyph).getD i 0 = (glyph (chars.getD (i / 6) 0x20)).getD (i % 6) 0 := by
  induction chars generalizing i with
  | nil => exact absurd hi (Nat.not_lt_zero _)
  | cons c chars ih =>
      rw [List.length_cons] at hi
      rw [List.flatMap_cons]
      by_cases hfirst : i < 6
      · rw [List.getD_append _ _ _ _ hfirst, Nat.div_eq_of_lt hfirst, Nat.mod_eq_of_lt hfirst]
        rfl
      · have hdiv : i / 6 = (i - 6) / 6 + 1 := by omega
        have hmod : i % 6 = (i - 6) % 6 := by omega
        rw [List.getD_append_right _ _ _ _ (not_lt.mp hfirst), length_glyph, ih (by omega), hdiv,
          hmod, List.getD_cons_succ]

/-- An unprintable character is shown as a question mark. -/
def shownChar (c : UInt8) : UInt8 := if 0x20 ≤ c ∧ c ≤ 0x7E then c else 0x3F

/-- One column of a character: five from the font, and a gap. -/
def glyphColumn (c : UInt8) (i : ℕ) : UInt8 :=
  if i < 5 then (font5x7.getD ((shownChar c).toNat - 0x20) []).getD i 0 else 0

theorem toNat_normalizeChar (c : UInt8) :
    (normalizeChar c).toNat = (shownChar c).toNat - 0x20 := by
  have hprintable : ¬ (c < 0x20 ∨ c > 0x7E) ↔ 0x20 ≤ c ∧ c ≤ 0x7E := by
    rw [not_or, UInt8.not_lt, gt_iff_lt, UInt8.not_lt]
  rw [normalizeChar, shownChar]
  by_cases h : 0x20 ≤ c ∧ c ≤ 0x7E
  · rw [if_neg (hprintable.mpr h), if_pos h]
    exact toNat_sub8 (UInt8.le_iff_toNat_le.mp h.1)
  · rw [if_pos (not_not.mp (mt hprintable.mp h)), if_neg h]
    rfl

theorem getD_glyph (c : UInt8) {i : ℕ} (hi : i < 6) : (glyph c).getD i 0 = glyphColumn c i := by
  rw [glyph, glyphColumn]
  by_cases hfont : i < 5
  · rw [List.getD_append _ _ _ _ (by simpa using hfont), if_pos hfont, ← toNat_normalizeChar,
      List.getD_eq_getElem _ _ (by simpa using hfont), List.getElem_map, List.getElem_range]
  · obtain rfl : i = 5 := by omega
    rfl

section Succeeds

variable (hsucceeds : Succeeds dl d sent)
include hsucceeds

/-- The list goes out in packets of seven bytes at most, and nothing is lost between them. -/
theorem shows_writeList {control : UInt8}
    (hcontrol : control = ssd1306ControlCommand ∨ control = ssd1306ControlData)
    (bytes : List UInt8) (length offset : UInt8) :
    Shows sent (writeList dl d control bytes length offset) true fun m =>
      (slice bytes offset.toNat (length.toNat - offset.toNat)).foldl (Display.byte control) m := by
  induction hn : length.toNat - offset.toNat using Nat.strong_induction_on generalizing offset with
  | h n ih =>
      rw [writeList]
      by_cases hmore : offset < length
      · have hlt := UInt8.lt_iff_toNat_lt.mp hmore
        have hnext := toNat_add_chunk hmore
        have hchunk := toNat_chunk hmore
        have hpacket : IsPacket (control :: slice bytes offset.toNat (chunk length offset).toNat) :=
          ⟨by simp [slice]; omega, by simp [slice]; omega, by simpa using hcontrol⟩
        rw [if_pos hmore]
        have hsend : Shows sent
            (writePacket dl d (control :: slice bytes offset.toNat (chunk length offset).toNat))
            true fun m => (slice bytes offset.toNat (chunk length offset).toNat).foldl
              (Display.byte control) m :=
          ⟨_, hsucceeds _ hpacket, List.forall_mem_singleton.mpr hpacket, fun m => rfl⟩
        have hrest := ih _ (by omega) (offset + chunk length offset) rfl
        have hall : n = (chunk length offset).toNat +
            (length.toNat - (offset + chunk length offset).toNat) := by omega
        have hoffset : (offset + chunk length offset).toNat =
            offset.toNat + (chunk length offset).toNat := by omega
        rw [hall, slice_add, ← hoffset]
        refine (hsend.bind hrest).congr fun m => ?_
        exact (List.foldl_append ..).symm
      · rw [if_neg hmore]
        have hzero : n = 0 := by
          have := mt UInt8.lt_iff_toNat_lt.mpr hmore
          omega
        subst hzero
        exact shows_pure true

theorem shows_writeCommandList (commands : List UInt8) (length : UInt8)
    (hlength : length.toNat ≤ commands.length) :
    Shows sent (writeCommandList dl d commands length) true
      fun m => (commands.take length.toNat).foldl Display.command m := by
  have hbyte : Display.byte ssd1306ControlCommand = Display.command := by
    funext m b
    exact if_pos rfl
  refine (shows_writeList hsucceeds (Or.inl rfl) commands length 0).congr fun m => ?_
  rw [hbyte]
  exact congrArg (List.foldl Display.command m) (slice_zero hlength)

theorem shows_writeDataList (data : List UInt8) (length : UInt8)
    (hlength : length.toNat ≤ data.length) :
    Shows sent (writeDataList dl d data length) true
      fun m => (data.take length.toNat).foldl Display.data m := by
  have hbyte : Display.byte ssd1306ControlData = Display.data := by
    funext m b
    exact (if_neg (by decide)).trans (if_pos rfl)
  refine (shows_writeList hsucceeds (Or.inr rfl) data length 0).congr fun m => ?_
  rw [hbyte]
  exact congrArg (List.foldl Display.data m) (slice_zero hlength)

theorem shows_setCursor {row col : UInt8} (hrow : row < ssd1306TextRows)
    (hcol : col.toNat < ssd1306TextColumns) :
    Shows sent (setCursor dl d row col) true fun m =>
      { m with page := .ofNat 3 row.toNat, column := .ofNat 7 (6 * col.toNat) } := by
  have hlt : col.toNat < 21 := hcol
  have hcolumn : (col * ssd1306CellWidth).toNat = 6 * col.toNat := by
    rw [UInt8.toNat_mul, Nat.mul_comm]
    exact Nat.mod_eq_of_lt (show 6 * _ < 2 ^ 8 by omega)
  have hin : ¬ (row ≥ ssd1306TextRows ∨ col.toNat ≥ ssd1306TextColumns) := by
    rintro (h | h)
    · exact absurd hrow (UInt8.not_lt.mpr h)
    · omega
  rw [setCursor, if_neg hin]
  refine (shows_writeCommandList hsucceeds _ 3 le_rfl).congr fun m => ?_
  refine (Display.foldl_command m row _ (UInt8.lt_iff_toNat_lt.mp hrow) (by omega)).trans ?_
  rw [hcolumn]

theorem shows_writeChar (c : UInt8) :
    Shows sent (writeChar dl d c) true fun m => (glyph c).foldl Display.data m := by
  refine (shows_writeDataList hsucceeds (glyph c) 6 ?_).congr fun m => ?_
  · exact le_rfl
  · rfl

/-! ### Clearing -/

theorem shows_clearColumns (col : UInt8) :
    Shows sent (clearColumns dl d col) true fun m =>
      (List.replicate (128 - col.toNat) 0).foldl Display.data m := by
  induction hn : 128 - col.toNat using Nat.strong_induction_on generalizing col with
  | h n ih =>
      rw [clearColumns]
      by_cases hmore : col < ssd1306Width
      · have hlt : col.toNat < 128 := UInt8.lt_iff_toNat_lt.mp hmore
        have hnext : (col + 7).toNat = col.toNat + 7 := toNat_add8 (show _ + 7 < 2 ^ 8 by omega)
        have hcount : (chunk ssd1306Width col).toNat = min (128 - col.toNat) 7 :=
          toNat_chunk hmore
        have hzeros : ([0, 0, 0, 0, 0, 0, 0] : List UInt8).take (chunk ssd1306Width col).toNat =
            List.replicate (chunk ssd1306Width col).toNat 0 := by
          rw [show ([0, 0, 0, 0, 0, 0, 0] : List UInt8) = List.replicate 7 0 from rfl,
            List.take_replicate, Nat.min_eq_left (by omega)]
        have hall : n = (chunk ssd1306Width col).toNat + (128 - (col + 7).toNat) := by omega
        rw [if_pos hmore, hall, List.replicate_add]
        have hsend := shows_writeDataList hsucceeds
          [0, 0, 0, 0, 0, 0, 0] (chunk ssd1306Width col) (show _ ≤ 7 by omega)
        rw [hzeros] at hsend
        refine (hsend.bind (ih _ (by omega) (col + 7) rfl)).congr fun m => ?_
        exact (List.foldl_append ..).symm
      · rw [if_neg hmore]
        have hzero : n = 0 := by
          have hge : ¬ col.toNat < 128 := fun h => hmore (UInt8.lt_iff_toNat_lt.mpr h)
          omega
        subst hzero
        exact shows_pure true

/-- The pages from `row` on are cleared, the others stay. -/
theorem shows_clearRows (row : UInt8) :
    ∃ f, Shows sent (clearRows dl d row) true f ∧ ∀ (m : Display) page column,
      (f m).gddram page column =
        if row.toNat ≤ page.toNat then 0 else m.gddram page column := by
  induction hn : 8 - row.toNat generalizing row with
  | zero =>
      have hdone : ¬ row < ssd1306PageCount := fun h => by
        have hlt : row.toNat < 8 := UInt8.lt_iff_toNat_lt.mp h
        omega
      rw [clearRows, if_neg hdone]
      refine ⟨id, shows_pure true, fun m page column => (if_neg ?_).symm⟩
      have := page.isLt
      omega
  | succ n ih =>
      have hmore : row < ssd1306PageCount := UInt8.lt_iff_toNat_lt.mpr (show _ < 8 by omega)
      have hlt : row.toNat < 8 := UInt8.lt_iff_toNat_lt.mp hmore
      have hnext : (row + 1).toNat = row.toNat + 1 := toNat_add8 (show _ + 1 < 2 ^ 8 by omega)
      obtain ⟨f, hrest, hf⟩ := ih (row + 1) (by omega)
      rw [clearRows, if_pos hmore]
      have hcursor := shows_writeCommandList hsucceeds
        [0xB0 + row, 0x00, 0x10] 3 le_rfl
      refine ⟨_, hcursor.bind ((shows_clearColumns hsucceeds 0).bind hrest), fun m page column => ?_⟩
      have hplace : [0xB0 + row, 0x00, 0x10].foldl Display.command m =
          { m with page := .ofNat 3 row.toNat, column := 0 } :=
        Display.foldl_command m row 0 hlt (by decide)
      have hcolumn : column.toNat < 0 + 128 := column.isLt
      have hpage : page = .ofNat 3 row.toNat ↔ page.toNat = row.toNat := by
        rw [← BitVec.toNat_inj, BitVec.toNat_ofNat, Nat.mod_eq_of_lt hlt]
      show (f ((List.replicate 128 0).foldl Display.data
        ([0xB0 + row, 0x00, 0x10].foldl Display.command m))).gddram page column = _
      rw [hf, hplace, Display.foldl_data (by simp), hnext]
      rcases Nat.lt_trichotomy row.toNat page.toNat with hbelow | hthis | habove
      · rw [if_pos (show row.toNat + 1 ≤ page.toNat from hbelow), if_pos hbelow.le]
      · rw [if_neg (by omega), if_pos hthis.le]
        refine (if_pos ⟨hpage.mpr hthis.symm, Nat.zero_le _, by simpa using hcolumn⟩).trans ?_
        exact List.getD_replicate _ (by simpa using hcolumn)
      · rw [if_neg (by omega), if_neg (by omega)]
        exact if_neg fun hin => habove.ne (hpage.mp hin.1)

/-! ### Texts -/

theorem shows_padText (col written : UInt8) (h : col.toNat + written.toNat ≤ ssd1306TextColumns) :
    Shows sent (padText dl d col written) true fun m =>
      ((List.replicate (ssd1306TextColumns - (col.toNat + written.toNat)) 0x20).flatMap glyph).foldl
        Display.data m := by
  induction hn : ssd1306TextColumns - (col.toNat + written.toNat) generalizing written with
  | zero =>
      rw [padText, if_neg (by omega)]
      exact shows_pure true
  | succ n ih =>
      have hnext := toNat_add_one written (by omega)
      rw [padText, if_pos (by omega), List.replicate_succ, List.flatMap_cons]
      refine ((shows_writeChar hsucceeds 0x20).bind
        (ih (written + 1) (by omega) (by omega))).congr fun m => ?_
      exact (List.foldl_append ..).symm

theorem shows_writeText {text : BytePtr} {chars : List UInt8} (htext : IsCString text chars)
    (col written : UInt8) (h : col.toNat + written.toNat ≤ ssd1306TextColumns)
    (hwritten : written.toNat ≤ chars.length) :
    ∃ written' : UInt8,
      written'.toNat = min chars.length (ssd1306TextColumns - col.toNat) ∧
      Shows sent (writeText dl d col text written) (true, written') fun m =>
        (((chars.drop written.toNat).take
          (ssd1306TextColumns - (col.toNat + written.toNat))).flatMap glyph).foldl
            Display.data m := by
  induction hn : ssd1306TextColumns - (col.toNat + written.toNat) generalizing written with
  | zero =>
      refine ⟨written, by omega, ?_⟩
      rw [writeText, if_neg (by omega)]
      exact shows_pure _
  | succ n ih =>
      rcases hwritten.lt_or_eq with hlt | hend
      · have hnext := toNat_add_one written (by omega)
        have hchar : chars.getD written.toNat 0 = chars[written.toNat] :=
          List.getD_eq_getElem _ _ hlt
        have hbyte := htext.bytes_eq _ hlt
        have hne : text.bytes written.toNat ≠ 0 := by
          rw [hbyte, hchar]
          exact htext.ne_zero _ (List.getElem_mem hlt)
        obtain ⟨written', hwritten', hrest⟩ :=
          ih (written + 1) (by omega) (by omega) (by omega)
        refine ⟨written', hwritten', ?_⟩
        rw [writeText, if_pos ⟨hne, by omega⟩, hbyte, hchar,
          ← List.getElem_cons_drop hlt, List.take_succ_cons, List.flatMap_cons, ← hnext]
        refine ((shows_writeChar hsucceeds _).bind hrest).congr fun m => ?_
        exact (List.foldl_append ..).symm
      · refine ⟨written, by omega, ?_⟩
        rw [writeText, hend, htext.ends, if_neg fun h => h.1 rfl, List.drop_length]
        exact shows_pure _

theorem shows_writeString {text : BytePtr} {chars : List UInt8} (htext : IsCString text chars)
    {row col : UInt8} (hrow : row < ssd1306TextRows) (hcol : col.toNat < ssd1306TextColumns) :
    Shows sent (ssd1306Mspm0WriteString dl d row col text) true fun m =>
      ((chars.take (ssd1306TextColumns - col.toNat)).flatMap glyph).foldl Display.data
        { m with page := .ofNat 3 row.toNat, column := .ofNat 7 (6 * col.toNat) } := by
  obtain ⟨written, -, htextShows⟩ := shows_writeText hsucceeds htext col 0 hcol.le
    (Nat.zero_le _)
  have hnull : ¬ text.null = true := by
    rw [htext.not_null]
    exact Bool.false_ne_true
  rw [ssd1306Mspm0WriteString, if_neg hnull]
  refine ((shows_setCursor hsucceeds hrow hcol).bind
    (htextShows.bind (shows_pure true))).congr fun m => ?_
  rfl

theorem shows_writeStringPadded {text : BytePtr} {chars : List UInt8}
    (htext : IsCString text chars) {row col : UInt8} (hrow : row < ssd1306TextRows)
    (hcol : col.toNat < ssd1306TextColumns) :
    Shows sent (ssd1306Mspm0WriteStringPadded dl d row col text) true fun m =>
      ((cells chars col.toNat).flatMap glyph).foldl Display.data
        { m with page := .ofNat 3 row.toNat, column := .ofNat 7 (6 * col.toNat) } := by
  obtain ⟨written, hwritten, htextShows⟩ := shows_writeText hsucceeds htext col 0 hcol.le
    (Nat.zero_le _)
  have hpad := shows_padText hsucceeds col written (by omega)
  have hnull : ¬ text.null = true := by
    rw [htext.not_null]
    exact Bool.false_ne_true
  rw [ssd1306Mspm0WriteStringPadded, if_neg hnull]
  refine ((shows_setCursor hsucceeds hrow hcol).bind (htextShows.bind hpad)).congr fun m => ?_
  have hblanks : ssd1306TextColumns - (col.toNat + written.toNat) =
      ssd1306TextColumns - col.toNat - min chars.length (ssd1306TextColumns - col.toNat) := by
    omega
  rw [cells, List.flatMap_append, List.foldl_append, ← hblanks]
  rfl

end Succeeds

/-! ### Rows -/

/-- What is in a column behind a text that begins in a cell of the row. -/
def shownByte (chars : List UInt8) (col column : ℕ) : UInt8 :=
  glyphColumn (chars.getD (column / 6 - col) 0x20) (column % 6)

/-- All packets sent are packets, and afterwards the memory is that of `f`. -/
def Leaves (sent : σ → List (List UInt8)) (p : Driver σ Bool)
    (f : Display → BitVec 3 → BitVec 7 → UInt8) : Prop :=
  ∃ packets, Emits sent p true packets ∧ (∀ packet ∈ packets, IsPacket packet) ∧
    ∀ (m : Display) page column, (m.after packets).gddram page column = f m page column

/-- A text and blanks up to column 125 replace what the row shows from a cell on. -/
def ReplacesSegment (sent : σ → List (List UInt8)) (p : Driver σ Bool) (chars : List UInt8)
    (row col : UInt8) : Prop :=
  Leaves sent p fun m page column =>
    if page.toNat = row.toNat ∧ 6 * col.toNat ≤ column.toNat ∧ column.toNat ≤ 125 then
      shownByte chars col.toNat column.toNat
    else m.gddram page column

theorem replacesSegment (hsucceeds : Succeeds dl d sent) {text : BytePtr} {chars : List UInt8}
    (htext : IsCString text chars) {row col : UInt8} (hrow : row < ssd1306TextRows)
    (hcol : col.toNat < ssd1306TextColumns) :
    ReplacesSegment sent (ssd1306Mspm0WriteStringPadded dl d row col text) chars row col := by
  obtain ⟨packets, hemits, hpackets, hafter⟩ :=
    shows_writeStringPadded hsucceeds htext hrow hcol
  have hlt : col.toNat < 21 := hcol
  have hrow' : row.toNat < 8 := UInt8.lt_iff_toNat_lt.mp hrow
  have hlength : ((cells chars col.toNat).flatMap glyph).length = 126 - 6 * col.toNat := by
    rw [length_flatMap_glyph, length_cells, ssd1306TextColumns]
    omega
  have hstart : (BitVec.ofNat 7 (6 * col.toNat)).toNat = 6 * col.toNat := by
    rw [BitVec.toNat_ofNat]
    omega
  refine ⟨packets, hemits, hpackets, fun m page column => ?_⟩
  have hpage : page = .ofNat 3 row.toNat ↔ page.toNat = row.toNat := by
    rw [← BitVec.toNat_inj, BitVec.toNat_ofNat, Nat.mod_eq_of_lt hrow']
  rw [hafter]
  dsimp only
  rw [Display.foldl_data (by rw [hstart, hlength]; omega)]
  show Display.overwritten _ _ _ _ = _
  rw [Display.overwritten, hstart, hlength]
  by_cases hin : page.toNat = row.toNat ∧ 6 * col.toNat ≤ column.toNat ∧ column.toNat ≤ 125
  · have hdiv : (column.toNat - 6 * col.toNat) / 6 = column.toNat / 6 - col.toNat := by omega
    have hmod : (column.toNat - 6 * col.toNat) % 6 = column.toNat % 6 := by omega
    rw [if_pos ⟨hpage.mpr hin.1, hin.2.1, by omega⟩, if_pos hin, getD_flatMap_glyph,
      getD_glyph _ (Nat.mod_lt _ (by decide)), hdiv, hmod, getD_cells, shownByte]
    · rw [ssd1306TextColumns]
      omega
    · rw [length_cells, ssd1306TextColumns]
      omega
  · rw [if_neg hin, if_neg fun h => hin ⟨hpage.mp h.1, h.2.1, by omega⟩]

/-- The driver says no, and has not touched the controller. -/
def Refuses (p : Driver σ Bool) : Prop := ∀ s, Ensures p s fun ok s' => ok = false ∧ s' = s

variable (dl d) in
theorem refuses_writeStringPadded {row col : UInt8}
    (h : ¬ (row < ssd1306TextRows ∧ col.toNat < ssd1306TextColumns)) (text : BytePtr) :
    Refuses (ssd1306Mspm0WriteStringPadded dl d row col text) := by
  have hout : row ≥ ssd1306TextRows ∨ col.toNat ≥ ssd1306TextColumns := by
    rw [not_and_or, UInt8.not_lt, Nat.not_lt] at h
    exact h
  have hcursor : setCursor dl d row col = pure false := by
    rw [setCursor, if_pos hout]
  intro s
  rw [ssd1306Mspm0WriteStringPadded, hcursor]
  by_cases hnull : text.null
  · rw [if_pos hnull, ensures_pure]
    exact ⟨rfl, rfl⟩
  · rw [if_neg hnull, pure_bind, if_neg Bool.false_ne_true, ensures_pure]
    exact ⟨rfl, rfl⟩

theorem leaves_clear (hsucceeds : Succeeds dl d sent) :
    Leaves sent (ssd1306Mspm0Clear dl d) fun _ _ _ => 0 := by
  obtain ⟨f, ⟨packets, hemits, hpackets, hafter⟩, hf⟩ := shows_clearRows hsucceeds 0
  refine ⟨packets, hemits, hpackets, fun m page column => ?_⟩
  rw [hafter, hf]
  exact if_pos (Nat.zero_le _)

/-- While the bus works, a padded text replaces its part of the row and nothing else, or is
refused where there is no such part; and clearing clears the whole memory. -/
theorem row_segment_replaced (hsucceeds : Succeeds dl d sent) :
    (∀ (row col : UInt8) text chars, IsCString text chars →
      (row < ssd1306TextRows ∧ col.toNat < ssd1306TextColumns →
        ReplacesSegment sent (ssd1306Mspm0WriteStringPadded dl d row col text) chars row col) ∧
      (¬ (row < ssd1306TextRows ∧ col.toNat < ssd1306TextColumns) →
        Refuses (ssd1306Mspm0WriteStringPadded dl d row col text))) ∧
    Leaves sent (ssd1306Mspm0Clear dl d) fun _ _ _ => 0 := by
  refine ⟨fun row col text chars htext => ⟨fun hin => ?_, fun hout => ?_⟩, ?_⟩
  · exact replacesSegment hsucceeds htext hin.1 hin.2
  · exact refuses_writeStringPadded dl d hout text
  · exact leaves_clear hsucceeds

/-! A controller on which nothing goes wrong. -/

structure Wire where
  fifo : List UInt8
  sent : List (List UInt8)

def wire : DlI2cController Wire where
  statusError := 0x02
  statusIdle := 0x20
  statusBusy := 0x01
  statusBusyBus := 0x40
  getControllerStatus := access fun s => (0x20, s)
  isControllerRXFIFOEmpty := access fun s => (true, s)
  receiveControllerData := access fun s => (0, s)
  resetControllerTransfer := access fun s => ((), { s with fifo := [] })
  fillControllerTXFIFO bytes := access fun s =>
    ((bytes.take (8 - s.fifo.length)).length,
      { s with fifo := s.fifo ++ bytes.take (8 - s.fifo.length) })
  startControllerTransfer _ len := access fun s =>
    ((), { fifo := s.fifo.drop len.toNat, sent := s.sent ++ [s.fifo.take len.toNat] })
  updateMSA _ := access fun s => ((), s)
  updateMCTR _ := access fun s => ((), s)
  disableController := access fun s => ((), s)
  enableController := access fun s => ((), s)
  flushControllerTXFIFO := access fun s => ((), { s with fifo := [] })

theorem ensures_waitUntilIdle_wire (s : Wire) :
    Ensures (waitUntilIdle wire) s fun ok s' => ok = true ∧ s' = s := by
  have hbusy : Ensures (busy wire) s fun b s' => b = false ∧ s' = s := by
    have hclear : decide ((0x20 : UInt32) &&& 0x01 ≠ 0) = false := by decide
    rw [busy, ensures_bind]
    show Ensures (access _) _ _
    rw [ensures_access, ensures_pure]
    exact ⟨hclear, rfl⟩
  have hidle : Ensures (notIdle wire) s fun b s' => b = false ∧ s' = s := by
    have hset : decide ((0x20 : UInt32) &&& 0x20 = 0) = false := by decide
    rw [notIdle, ensures_bind]
    show Ensures (access _) _ _
    rw [ensures_access, ensures_pure]
    exact ⟨hset, rfl⟩
  rw [waitUntilIdle, ensures_bind]
  refine (ensures_poll_clear hbusy _).imp ?_
  rintro _ s' ⟨rfl, rfl⟩
  rw [if_pos rfl, ensures_bind]
  refine (ensures_poll_clear hidle _).imp ?_
  rintro _ s' ⟨rfl, rfl⟩
  have hnoError : decide ((0x20 : UInt32) &&& 0x02 = 0) = true := by decide
  rw [if_pos rfl, ensures_bind]
  show Ensures (access _) _ _
  rw [ensures_access, ensures_pure]
  exact ⟨hnoError, rfl⟩

theorem succeeds_wire : Succeeds wire ⟨1, 0x3C⟩ Wire.sent := by
  rintro packet ⟨htwo, height, -⟩ s
  have hlen : (UInt16.ofNat packet.length).toNat = packet.length :=
    UInt16.toNat_ofNat_of_lt' (show _ < 2 ^ 16 by omega)
  have hnull : ¬ ((1 : UInt32) = 0 ∨ packet = []) := by
    rintro (h | rfl)
    · exact absurd h (by decide)
    · exact absurd htwo (by decide)
  rw [writePacket, if_neg hnull, ensures_bind]
  refine (ensures_waitUntilIdle_wire s).imp ?_
  rintro _ s' ⟨rfl, rfl⟩
  have htake : packet.take (8 - ([] : List UInt8).length) = packet := List.take_of_length_le height
  have hfill : (packet.take (8 - ([] : List UInt8).length)).length = packet.length :=
    congrArg List.length htake
  rw [if_pos rfl, ensures_bind]
  refine ⟨_, rfl, ?_⟩
  dsimp only
  rw [ensures_bind]
  refine ⟨_, rfl, ?_⟩
  dsimp only
  rw [if_neg (not_not.mpr hfill), ensures_bind]
  refine ⟨_, rfl, ?_⟩
  dsimp only
  rw [ensures_bind]
  refine (ensures_waitUntilIdle_wire _).imp ?_
  rintro _ s'' ⟨rfl, rfl⟩
  rw [if_pos rfl, ensures_pure]
  refine ⟨rfl, ?_⟩
  show s'.sent ++ [([] ++ packet.take (8 - ([] : List UInt8).length)).take
    (UInt16.ofNat packet.length).toNat] = _
  rw [htake, hlen, List.nil_append, List.take_length]

/-- A text of which two characters fit, the second one unprintable. -/
theorem row_segment_replaced_wire :
    ReplacesSegment Wire.sent
      (ssd1306Mspm0WriteStringPadded wire ⟨1, 0x3C⟩ 7 19
        ⟨false, fun i => [0x41, 0x07, 0x42].getD i 0⟩)
      [0x41, 0x07, 0x42] 7 19 := by
  have hnonzero : ∀ c ∈ ([0x41, 0x07, 0x42] : List UInt8), c ≠ 0 := by
    refine List.forall_mem_cons.mpr ⟨by decide, List.forall_mem_cons.mpr ⟨by decide, ?_⟩⟩
    exact List.forall_mem_singleton.mpr (by decide)
  have htext : IsCString ⟨false, fun i => [0x41, 0x07, 0x42].getD i 0⟩ [0x41, 0x07, 0x42] :=
    ⟨rfl, fun _ _ => rfl, hnonzero, rfl⟩
  exact ((row_segment_replaced succeeds_wire).1 7 19 _ _ htext).1 ⟨by decide, by decide⟩

end NuedcFirmware.Modules.Ssd1306
