import NuedcFirmware.Lib.PyText

/-!
Texts of fields that are cut off, or in which something foreign stands.

A reader that splits a text at its separators gets of a text that is cut off the fields before the
cut and the beginning of one more (`exists_splitOn_of_prefix`). The conversions to numbers refuse
a text with a character in it that no number has (`pyInt_eq_none`, `pyFloat_eq_none`).
-/

namespace NuedcFirmware.Lib

/-! ### Fields -/

/-- A joined text, with the separator put before every field but the first. -/
theorem intercalate_cons_eq_append_flatten {α : Type*} (sep : α) (first : List α)
    (fields : List (List α)) :
    [sep].intercalate (first :: fields) = first ++ (fields.map (sep :: ·)).flatten := by
  induction fields generalizing first with
  | nil => rw [List.intercalate_singleton, List.map_nil, List.flatten_nil, List.append_nil]
  | cons field fields ih =>
      rw [List.intercalate_cons_cons, ih, List.map_cons, List.flatten_cons, List.append_assoc,
        List.singleton_append, List.cons_append]

/-- The first place of an element is the only one. -/
theorem append_cons_inj_of_first {α : Type*} {a : α} {s s' t t' : List α} (hs : a ∉ s)
    (hs' : a ∉ s') (h : s ++ a :: t = s' ++ a :: t') : s = s' ∧ t = t' := by
  induction s generalizing s' with
  | nil =>
      cases s' with
      | nil => exact ⟨rfl, (List.cons.inj h).2⟩
      | cons b s' => exact absurd ((List.cons.inj h).1 ▸ List.mem_cons_self) hs'
  | cons b s ih =>
      rw [List.mem_cons, not_or] at hs
      cases s' with
      | nil => exact absurd (List.cons.inj h).1.symm hs.1
      | cons b' s' =>
          rw [List.mem_cons, not_or] at hs'
          obtain ⟨rfl, hrest⟩ := List.cons.inj h
          obtain ⟨rfl, ht⟩ := ih hs.2 hs'.2 hrest
          exact ⟨rfl, ht⟩

section Fields

variable {α : Type*} [BEq α] [LawfulBEq α] {sep : α}

/-- What has no separator in it is put before the first field. -/
theorem splitOn_append_of_notMem {s : List α} (h : sep ∉ s) (r : List α) :
    (s ++ r).splitOn sep = (r.splitOn sep).modifyHead (s ++ ·) := by
  induction s with
  | nil =>
      cases hr : r.splitOn sep with
      | nil => exact absurd hr (List.splitOn_ne_nil sep r)
      | cons field fields => rw [List.nil_append, hr, List.modifyHead_cons, List.nil_append]
  | cons a s ih =>
      rw [List.mem_cons, not_or] at h
      have hne : ¬ (a == sep) = true := fun heq => h.1 (eq_of_beq heq).symm
      rw [List.cons_append, List.splitOn_cons_eq_if_modifyHead, if_neg hne, ih h.2]
      cases hr : r.splitOn sep with
      | nil => exact absurd hr (List.splitOn_ne_nil sep r)
      | cons field fields => rfl

/-- A joined text that is cut off, and goes on with something else. -/
theorem exists_splitOn_of_prefix {fields : List (List α)} (hne : fields ≠ [])
    (hsep : ∀ field ∈ fields, sep ∉ field) {p : List α} (hp : p <+: [sep].intercalate fields) :
    ∃ before field behind part, fields = before ++ field :: behind ∧ part <+: field ∧
      p = [sep].intercalate (before ++ [part]) ∧
      ∀ r, (p ++ r).splitOn sep = before ++ (r.splitOn sep).modifyHead (part ++ ·) := by
  induction fields generalizing p with
  | nil => exact absurd rfl hne
  | cons field fields ih =>
      rw [List.forall_mem_cons] at hsep
      obtain ⟨hfield, hsep⟩ := hsep
      -- the cut may be within the first field
      have hwithin : p <+: field → ∃ before field' behind part,
          field :: fields = before ++ field' :: behind ∧ part <+: field' ∧
            p = [sep].intercalate (before ++ [part]) ∧
            ∀ r, (p ++ r).splitOn sep = before ++ (r.splitOn sep).modifyHead (part ++ ·) := by
        intro hpre
        refine ⟨[], field, fields, p, rfl, hpre, ?_, ?_⟩
        · rw [List.nil_append, List.intercalate_singleton]
        · intro r
          exact splitOn_append_of_notMem (fun hmem => hfield (hpre.subset hmem)) r
      cases fields with
      | nil =>
          rw [List.intercalate_singleton] at hp
          exact hwithin hp
      | cons next fields =>
          rw [List.intercalate_cons_cons, List.append_assoc] at hp
          rcases List.prefix_or_prefix_of_prefix hp (List.prefix_append field _) with
            hpre | ⟨tail, rfl⟩
          · exact hwithin hpre
          · have htail := (List.prefix_append_right_inj field).mp hp
            cases tail with
            | nil => exact hwithin ⟨[], by simp⟩
            | cons a tail =>
                obtain ⟨rfl, htail⟩ := List.cons_prefix_cons.mp htail
                obtain ⟨before, field', behind, part, heq, hpart, rfl, hsplit⟩ :=
                  ih (List.cons_ne_nil _ _) hsep htail
                refine ⟨field :: before, field', behind, part, by rw [heq]; rfl, hpart, ?_, ?_⟩
                · rw [List.cons_append, List.intercalate_cons_of_ne_nil (by simp)]
                  simp
                · intro r
                  rw [List.append_assoc, List.cons_append,
                    List.splitOn_append_cons_self_of_not_mem hfield, hsplit, List.cons_append]

end Fields

/-! ### Characters that no number has -/

/-- A character that stands in no text of a number. -/
@[mk_iff]
structure Foreign (c : Char) : Prop where
  blank : isBlank c = false
  digit : c.isDigit = false
  mark : c ∉ ['_', '+', '-', '.', 'e', 'E']
  letter : c.toLower ∉ ['i', 'n', 'f', 't', 'y', 'a']

instance (c : Char) : Decidable (Foreign c) := decidable_of_iff' _ (foreign_iff c)

theorem mem_dropWhile {p : Char → Bool} {c : Char} (hp : p c = false) {s : List Char}
    (h : c ∈ s) : c ∈ s.dropWhile p := by
  rw [← List.takeWhile_append_dropWhile (p := p) (l := s)] at h
  rcases List.mem_append.mp h with htake | hdrop
  · rw [List.mem_takeWhile_imp htake] at hp
    cases hp
  · exact hdrop

theorem mem_trim {p : Char → Bool} {c : Char} (hp : p c = false) {s : List Char} (h : c ∈ s) :
    c ∈ trim p s := by
  rw [trim, List.rdropWhile, List.mem_reverse]
  exact mem_dropWhile hp (List.mem_reverse.mpr (mem_dropWhile hp h))

theorem mem_dropUnderscores {c : Char} (hc : c ≠ '_') {s digits : List Char} {prev : Option Char}
    (hdrop : dropUnderscores prev s = some digits) (h : c ∈ s) : c ∈ digits := by
  induction s generalizing prev digits with
  | nil => cases h
  | cons d s ih =>
      rw [dropUnderscores] at hdrop
      split_ifs at hdrop with hunderscore hdigit hprev
      · rcases List.mem_cons.mp h with rfl | h
        · exact absurd hunderscore hc
        · exact ih hdrop h
      · obtain ⟨rest, hrest, rfl⟩ := Option.map_eq_some_iff.mp hdrop
        rcases List.mem_cons.mp h with rfl | h
        · exact List.mem_cons_self
        · exact List.mem_cons_of_mem d (ih hrest h)

/-! ### Stripping -/

section Strip

variable {p : Char → Bool}

/-- A text is what is trimmed of it, between characters of the kind. -/
theorem exists_eq_append_trim (p : Char → Bool) (s : List Char) :
    ∃ before behind, s = before ++ trim p s ++ behind ∧
      (∀ c ∈ before, p c = true) ∧ ∀ c ∈ behind, p c = true := by
  refine ⟨s.takeWhile p, ((s.dropWhile p).reverse.takeWhile p).reverse, ?_, ?_, ?_⟩
  · rw [trim, List.rdropWhile, List.append_assoc, ← List.reverse_append,
      List.takeWhile_append_dropWhile, List.reverse_reverse, List.takeWhile_append_dropWhile]
  · exact fun c hc => List.mem_takeWhile_imp hc
  · exact fun c hc => List.mem_takeWhile_imp (List.mem_reverse.mp hc)

theorem trim_append_of_forall {s behind : List Char} (hs : ∀ c ∈ s, p c = false)
    (hbehind : ∀ c ∈ behind, p c = true) : trim p (s ++ behind) = s := by
  have hlast : ∀ s : List Char, (s ++ behind).rdropWhile p = s.rdropWhile p := by
    intro s
    rw [List.rdropWhile, List.reverse_append, List.dropWhile_append_of_pos, ← List.rdropWhile]
    exact fun c hc => hbehind c (List.mem_reverse.mp hc)
  cases s with
  | nil =>
      have hdrop : behind.dropWhile p = [] := List.dropWhile_eq_nil_iff.mpr hbehind
      rw [trim, List.nil_append, hdrop, List.rdropWhile_nil]
  | cons c s =>
      rw [trim, List.cons_append, List.dropWhile_cons, hs c List.mem_cons_self,
        if_neg Bool.false_ne_true, ← List.cons_append, hlast, rdropWhile_of_forall hs]

/-- Trimming takes nothing of what stands between two characters that are kept. -/
theorem exists_trim_append_cons {first c : Char} (hfirst : p first = false) (hc : p c = false)
    (s t : List Char) : ∃ t', trim p (first :: s ++ c :: t) = first :: s ++ c :: t' := by
  obtain ⟨before, behind, hs, hbefore, hbehind⟩ := exists_eq_append_trim p (first :: s ++ c :: t)
  generalize trim p (first :: s ++ c :: t) = kept at hs ⊢
  cases before with
  | cons d before =>
      obtain ⟨rfl, -⟩ := List.cons.inj hs
      rw [hbefore first List.mem_cons_self] at hfirst
      cases hfirst
  | nil =>
      have hnot : c ∉ behind := by
        intro hmem
        rw [hbehind c hmem] at hc
        cases hc
      rcases List.append_eq_append_iff.mp hs with ⟨more, hkept, hrest⟩ | ⟨more, hmore, hrest⟩
      · cases more with
        | nil =>
            rw [List.nil_append] at hrest
            exact absurd (hrest ▸ List.mem_cons_self) hnot
        | cons d more =>
            obtain ⟨rfl, -⟩ := List.cons.inj hrest
            exact ⟨more, hkept⟩
      · exact absurd (hrest ▸ List.mem_append_right _ List.mem_cons_self) hnot

end Strip

section Refused

variable {c : Char} {s : List Char}

theorem Foreign.mem_takeSign (hc : Foreign c) (h : c ∈ s) : c ∈ (takeSign s).2 := by
  have hmark := hc.mark
  cases s with
  | nil => exact h
  | cons d s =>
      rw [takeSign]
      split_ifs with hminus hplus
      · rcases List.mem_cons.mp h with rfl | h
        · simp [hminus] at hmark
        · exact h
      · rcases List.mem_cons.mp h with rfl | h
        · simp [hplus] at hmark
        · exact h
      · exact h

theorem Foreign.allDigits (hc : Foreign c) (h : c ∈ s) : allDigits s = false := by
  rw [Lib.allDigits, Bool.and_eq_false_iff]
  exact Or.inr (List.all_eq_false.mpr ⟨c, h, by rw [hc.digit]; exact Bool.false_ne_true⟩)

theorem pyInt_eq_none (hc : Foreign c) (h : c ∈ s) : pyInt s = none := by
  have hmem := hc.mem_takeSign (mem_trim hc.blank h)
  rw [pyInt]
  generalize takeSign (trim isBlank s) = signed at hmem ⊢
  obtain ⟨negative, s⟩ := signed
  simp only
  cases hdrop : dropUnderscores none s with
  | none => rfl
  | some digits =>
      have hmark := hc.mark
      have hdigits := hc.allDigits (mem_dropUnderscores (by rintro rfl; simp at hmark) hdrop hmem)
      rw [Option.bind_some, if_neg (by simp [hdigits])]

theorem parseExponent_eq_none (hc : Foreign c) (h : c ∈ s) : parseExponent s = none := by
  have hmark := hc.mark
  cases s with
  | nil => cases h
  | cons d s =>
      rcases List.mem_cons.mp h with rfl | h
      · have hnot : ¬ (c = 'e' ∨ c = 'E') := by
          rintro (rfl | rfl) <;> simp at hmark
        rw [parseExponent]
        exact if_neg fun hand => hnot hand.1
      · have hdigits := hc.allDigits (hc.mem_takeSign h)
        rw [parseExponent]
        exact if_neg fun hand => Bool.false_ne_true (hdigits.symm.trans hand.2)

theorem parseDecimal_eq_none (hc : Foreign c) (h : c ∈ s) : parseDecimal s = none := by
  have hmark := hc.mark
  have hrest := mem_dropWhile hc.digit h
  rw [parseDecimal]
  generalize s.dropWhile Char.isDigit = rest at hrest ⊢
  -- behind the digits there is a point, or there is none
  have hbehind : c ∈ if rest.head? = some '.' then rest.tail else rest := by
    split_ifs with hpoint
    · cases rest with
      | nil => cases hrest
      | cons d rest =>
          rcases List.mem_cons.mp hrest with rfl | hrest
          · rw [List.head?_cons, Option.some.injEq] at hpoint
            simp [hpoint] at hmark
          · exact hrest
    · exact hrest
  generalize (if rest.head? = some '.' then rest.tail else rest) = behind at hbehind ⊢
  have hexponent : c ∈ behind.drop
      (if rest.head? = some '.' then behind.takeWhile Char.isDigit else []).length := by
    split_ifs
    · have hsplit : behind.drop (behind.takeWhile Char.isDigit).length =
          behind.dropWhile Char.isDigit := by
        conv_lhs => rw [← List.takeWhile_append_dropWhile (p := Char.isDigit) (l := behind)]
        exact List.drop_left' (by rw [List.takeWhile_append_dropWhile])
      rw [hsplit]
      exact mem_dropWhile hc.digit hbehind
    · exact hbehind
  generalize (if rest.head? = some '.' then behind.takeWhile Char.isDigit else []) = frac
    at hexponent ⊢
  rw [parseExponent_eq_none hc hexponent, Option.map_none]
  exact ite_self _

theorem pyFloat_eq_none (hc : Foreign c) (h : c ∈ s) : pyFloat s = none := by
  have hmark := hc.mark
  have hmem := mem_trim hc.blank h
  rw [pyFloat]
  cases hdrop : dropUnderscores none (trim isBlank s) with
  | none => rfl
  | some digits =>
      have hdigits := hc.mem_takeSign (mem_dropUnderscores (by rintro rfl; simp at hmark) hdrop hmem)
      rw [Option.bind_some]
      generalize takeSign digits = signed at hdigits ⊢
      obtain ⟨negative, text⟩ := signed
      have hlower : c.toLower ∈ text.map Char.toLower := List.mem_map_of_mem hdigits
      have hword : ∀ word : List Char, word ⊆ ['i', 'n', 'f', 't', 'y', 'a'] →
          text.map Char.toLower ≠ word := by
        rintro word hsub rfl
        exact hc.letter (hsub hlower)
      simp only
      rw [if_neg (not_or.mpr ⟨hword _ (by decide), hword _ (by decide)⟩),
        if_neg (hword _ (by decide)), parseDecimal_eq_none hc hdigits, Option.map_none]

end Refused

end NuedcFirmware.Lib
