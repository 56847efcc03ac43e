import NuedcFirmware.Modules.TelemetryOutput

/-!
What `imu_capture.py` makes of a piece of a line.

A read of the tool ends at a line feed, or where its time-out finds it; and a line of the firmware
may be broken by a reply that the receive interrupt sends in the middle of it. Of all these pieces
the tool accepts only those that hold the whole text of an IMU line.
-/

namespace NuedcFirmware.Modules.TelemetryOutput.Capture

open NuedcFirmware.Lib ImuTelemetry

variable (accelNorm : Binary64 → Binary64 → Binary64 → Binary64)

/-- What the loop of the tool makes of a text. -/
def accept (s : List Char) : Option ImuSample := parseImuLine accelNorm (strip s)

variable {accelNorm} {s : List Char}

theorem capture_eq_accept (h : ∀ c ∈ s, c.toNat < 128) :
    capture accelNorm (encodeAscii s) = accept accelNorm s := by
  rw [capture, decodeAscii_encodeAscii h, accept]

/-! ### Pieces that begin elsewhere -/

theorem isPrefixOf_of_parseImuLine {sample : ImuSample}
    (h : parseImuLine accelNorm s = some sample) : ['$', 'I', ','] <+: s := by
  rw [parseImuLine] at h
  split_ifs at h with hprefix
  rw [Bool.not_eq_true', Bool.not_eq_false] at hprefix
  exact List.isPrefixOf_iff_prefix.mp hprefix

/-- Before the beginning of a line there are only spaces. -/
theorem exists_of_accept {sample : ImuSample} (h : accept accelNorm s = some sample) :
    ∃ before behind, s = before ++ '$' :: 'I' :: ',' :: behind ∧ '$' ∉ before := by
  obtain ⟨before, behind, hs, hbefore, -⟩ := exists_eq_append_trim isPySpace s
  obtain ⟨rest, hrest⟩ := isPrefixOf_of_parseImuLine h
  refine ⟨before, rest ++ behind, ?_, ?_⟩
  · conv_lhs => rw [hs]
    rw [← strip, ← hrest]
    simp
  · intro hmem
    exact absurd (hbefore _ hmem) (by decide)

theorem accept_eq_none_of_notMem (h : '$' ∉ s) : accept accelNorm s = none := by
  rw [Option.eq_none_iff_forall_ne_some]
  intro sample haccept
  obtain ⟨before, behind, rfl, -⟩ := exists_of_accept haccept
  exact h (by simp)

/-- The first dollar sign is not that of an IMU line. -/
theorem accept_eq_none_of_name {before behind : List Char} (hbefore : '$' ∉ before)
    (hname : behind.head? ≠ some 'I') : accept accelNorm (before ++ '$' :: behind) = none := by
  rw [Option.eq_none_iff_forall_ne_some]
  intro sample haccept
  obtain ⟨before', behind', heq, hnot⟩ := exists_of_accept haccept
  obtain ⟨-, rfl⟩ := append_cons_inj_of_first hbefore hnot heq
  exact hname rfl

/-! ### Fields that are refused -/

/-- Either conversion takes a field. -/
def Converts (field : List Char) : Prop := (pyInt field).isSome ∨ (pyFloat field).isSome

theorem converts_of_parseImuLine {sample : ImuSample}
    (h : parseImuLine accelNorm s = some sample) :
    12 ≤ (s.splitOn ',').length ∧ ∀ field ∈ ((s.splitOn ',').drop 1).take 11, Converts field := by
  rw [parseImuLine] at h
  split_ifs at h
  split at h
  · rename_i heq
    simp only [bind, Option.bind_eq_some_iff] at h
    obtain ⟨ax, hax, ay, hay, az, haz, ts, hts, pitch, hpitch, roll, hroll, yaw, hyaw, gx, hgx,
      gy, hgy, gz, hgz, ready, hready, -⟩ := h
    have hint : ∀ {field : List Char} {n : ℤ}, pyInt field = some n → Converts field :=
      fun hn => Or.inl (hn ▸ rfl)
    have hfloat : ∀ {field : List Char} {x : Binary64}, pyFloat field = some x → Converts field :=
      fun hx => Or.inr (hx ▸ rfl)
    rw [heq]
    refine ⟨by simp, ?_⟩
    simp only [List.drop_succ_cons, List.drop_zero, List.take_succ_cons, List.take_zero,
      List.forall_mem_cons]
    exact ⟨hint hts, hfloat hpitch, hfloat hroll, hfloat hyaw, hfloat hgx, hfloat hgy, hfloat hgz,
      hfloat hax, hfloat hay, hfloat haz, hint hready, List.forall_mem_nil _⟩
  · cases h

/-- A text with too few fields. -/
theorem parseImuLine_of_length (h : (s.splitOn ',').length < 12) :
    parseImuLine accelNorm s = none := by
  rw [Option.eq_none_iff_forall_ne_some]
  intro sample hparse
  exact absurd (converts_of_parseImuLine hparse).1 (Nat.not_le.mpr h)

/-- A text with a field behind the name that is refused. -/
theorem parseImuLine_of_refused {before behind : List (List Char)} {field : List Char}
    (hsplit : s.splitOn ',' = before ++ field :: behind) (hname : before ≠ [])
    (hlength : before.length ≤ 11) (hnot : ¬ Converts field) : parseImuLine accelNorm s = none := by
  rw [Option.eq_none_iff_forall_ne_some]
  intro sample hparse
  apply hnot
  apply (converts_of_parseImuLine hparse).2
  rw [hsplit]
  cases before with
  | nil => exact absurd rfl hname
  | cons name before =>
      rw [List.length_cons] at hlength
      rw [List.cons_append, List.drop_succ_cons, List.drop_zero, List.take_append,
        show 11 - before.length = (10 - before.length) + 1 by omega, List.take_succ_cons]
      exact List.mem_append_right _ List.mem_cons_self

theorem not_converts_nil : ¬ Converts [] := by
  have hint : pyInt [] = none := by decide
  have hfloat : pyFloat [] = none := by decide +kernel
  simp [Converts, hint, hfloat]

theorem not_converts_of_mem {field : List Char} (h : '$' ∈ field) : ¬ Converts field := by
  have hforeign : Foreign '$' := by decide
  simp [Converts, pyInt_eq_none hforeign h, pyFloat_eq_none hforeign h]

/-! ### Pieces of an IMU line -/

/-- The fields of a line, of which the last is a digit. -/
structure ImuFields (fields : List (List Char)) : Prop where
  length : fields.length = 12
  plain : ∀ field ∈ fields, ∀ c ∈ field, Plain c
  name : fields.head? = some ['$', 'I']
  digit : ∀ field ∈ fields.getLast?, field.length = 1

section Piece

variable {fields : List (List Char)} {p : List Char}

theorem ImuFields.ne_nil (h : ImuFields fields) : fields ≠ [] := by
  rintro rfl
  exact absurd h.length (by decide)

theorem ImuFields.comma (h : ImuFields fields) : ∀ field ∈ fields, ',' ∉ field :=
  fun field hfield hmem => (h.plain field hfield _ hmem).comma rfl

theorem ImuFields.space (h : ImuFields fields) :
    ∀ c ∈ [','].intercalate fields, isPySpace c = false := by
  intro c hc
  rcases mem_intercalate hc with rfl | ⟨field, hfield, hc⟩
  · decide
  · exact (h.plain field hfield c hc).pySpace

theorem ImuFields.exists_intercalate (h : ImuFields fields) :
    ∃ rest, [','].intercalate fields = '$' :: 'I' :: ',' :: rest := by
  match fields, h.length, h.name with
  | _ :: next :: fields, _, hname =>
    obtain rfl := Option.some.inj hname
    exact ⟨_, List.intercalate_cons_cons⟩

/-- A line that is cut off before its last character. -/
theorem accept_of_cut (hfields : ImuFields fields) (hp : p <+: [','].intercalate fields)
    (hcut : p ≠ [','].intercalate fields) : accept accelNorm p = none := by
  obtain ⟨before, field, behind, part, heq, hpart, htext, hsplit⟩ :=
    exists_splitOn_of_prefix hfields.ne_nil hfields.comma hp
  have hsplit := hsplit []
  rw [List.append_nil, List.splitOn_nil, List.modifyHead_cons, List.append_nil] at hsplit
  rw [accept, strip, trim_of_forall fun c hc => hfields.space c (hp.subset hc)]
  have hlength := hfields.length
  rw [heq, List.length_append, List.length_cons] at hlength
  by_cases hlast : before.length < 11
  · apply parseImuLine_of_length
    rw [hsplit, List.length_append, List.length_singleton]
    omega
  · -- what is left of the last field is nothing, as it is a digit
    have hbehind : behind = [] := List.eq_nil_of_length_eq_zero (by omega)
    subst hbehind
    have hdigit : field.length = 1 := hfields.digit field (by rw [heq]; simp)
    have hempty : part = [] := by
      by_contra hpos
      have hfull : part = field := hpart.eq_of_length_le (by
        rw [hdigit]
        exact List.length_pos_iff.mpr hpos)
      exact hcut (by rw [htext, heq, hfull])
    subst hempty
    refine parseImuLine_of_refused hsplit ?_ (by omega) not_converts_nil
    rintro rfl
    exact absurd hlength (by decide)

/-- A line that is broken by a reply. -/
theorem accept_of_broken (hfields : ImuFields fields) (hp : p <+: [','].intercalate fields)
    (hne : p ≠ []) {gap : List Char} (hgap : ',' ∉ gap) (behind : List Char) :
    accept accelNorm (p ++ (gap ++ '$' :: behind)) = none := by
  rw [Option.eq_none_iff_forall_ne_some]
  intro sample haccept
  -- stripping takes nothing of what stands up to the dollar sign of the reply
  obtain ⟨rest, hline⟩ := hfields.exists_intercalate
  obtain ⟨p', rfl⟩ : ∃ p', p = '$' :: p' := by
    cases p with
    | nil => exact absurd rfl hne
    | cons c p' =>
        rw [hline] at hp
        exact ⟨p', by rw [(List.cons_prefix_cons.mp hp).1]⟩
  obtain ⟨behind', hstrip⟩ : ∃ behind',
      strip ('$' :: p' ++ (gap ++ '$' :: behind)) = '$' :: p' ++ (gap ++ '$' :: behind') := by
    obtain ⟨behind', htrim⟩ := exists_trim_append_cons (p := isPySpace)
      (by decide : isPySpace '$' = false) (by decide : isPySpace '$' = false) (p' ++ gap) behind
    exact ⟨behind', by simpa only [strip, List.cons_append, List.append_assoc] using htrim⟩
  rw [accept, hstrip] at haccept
  obtain ⟨before, field, behind'', part, heq, hpart, htext, hsplit⟩ :=
    exists_splitOn_of_prefix hfields.ne_nil hfields.comma hp
  obtain ⟨first, others, hfirst⟩ :=
    List.exists_cons_of_ne_nil (List.splitOn_ne_nil ',' behind')
  have hsplit := hsplit (gap ++ '$' :: behind')
  rw [splitOn_append_of_notMem hgap, List.splitOn_cons_eq_if_modifyHead, if_neg (by decide), hfirst,
    List.modifyHead_cons, List.modifyHead_cons, List.modifyHead_cons] at hsplit
  have hlength := hfields.length
  rw [heq, List.length_append, List.length_cons] at hlength
  have hdollar : '$' ∈ part ++ (gap ++ '$' :: first) := by simp
  cases before with
  | cons name before =>
      rw [parseImuLine_of_refused hsplit (List.cons_ne_nil _ _) (by omega)
        (not_converts_of_mem hdollar)] at haccept
      cases haccept
  | nil =>
      -- then the name itself is broken
      obtain ⟨rest', hrest'⟩ := isPrefixOf_of_parseImuLine haccept
      have hname : (['$', 'I', ','] ++ rest').splitOn ',' = ['$', 'I'] :: rest'.splitOn ',' :=
        List.splitOn_append_cons_self_of_not_mem (show ',' ∉ ['$', 'I'] by decide) rest'
      rw [List.nil_append, List.intercalate_singleton] at htext
      rw [← hrest', hname, ← htext] at hsplit
      have htail : ['I'] = p' ++ (gap ++ '$' :: first) :=
        (List.cons.inj (List.cons.inj hsplit).1).2
      have hmem : '$' ∈ p' ++ (gap ++ '$' :: first) := by simp
      rw [← htail] at hmem
      exact absurd hmem (by decide)

/-- With its line end or a part of it, the line is its text. -/
theorem accept_of_whole (hfields : ImuFields fields) {e : List Char} (he : e <+: ['\r', '\n']) :
    accept accelNorm ([','].intercalate fields ++ e) =
      parseImuLine accelNorm ([','].intercalate fields) := by
  have hspace : ∀ c ∈ ['\r', '\n'], isPySpace c = true := by
    simp only [List.forall_mem_cons]
    exact ⟨by decide, by decide, List.forall_mem_nil _⟩
  rw [accept, strip, trim_append_of_forall hfields.space fun c hc => hspace c (he.subset hc)]

variable (accelNorm) in
/-- A line up to somewhere in it. -/
theorem accept_of_prefix (hfields : ImuFields fields) (hp : p <+: line fields) :
    accept accelNorm p = none ∨
      accept accelNorm p = parseImuLine accelNorm ([','].intercalate fields) := by
  rcases List.prefix_or_prefix_of_prefix hp (List.prefix_append _ _) with hpre | ⟨e, rfl⟩
  · by_cases hcut : p = [','].intercalate fields
    · right
      rw [hcut]
      exact (congrArg _ (List.append_nil _).symm).trans (accept_of_whole hfields List.nil_prefix)
    · exact Or.inl (accept_of_cut hfields hpre hcut)
  · exact Or.inr (accept_of_whole hfields ((List.prefix_append_right_inj _).mp hp))

/-- A line that is broken somewhere before its line feed. -/
theorem accept_of_reply (hfields : ImuFields fields) (hp : p <+: line fields) (hne : p ≠ [])
    (hfeed : p ≠ line fields) (behind : List Char) :
    accept accelNorm (p ++ '$' :: behind) = none := by
  rcases List.prefix_or_prefix_of_prefix hp (List.prefix_append _ _) with hpre | ⟨e, rfl⟩
  · exact accept_of_broken hfields hpre hne (List.not_mem_nil : ',' ∉ []) behind
  · have he := (List.prefix_append_right_inj _).mp hp
    have hcomma : ',' ∉ e := fun hmem => absurd (he.subset hmem) (by decide)
    obtain ⟨rest, hline⟩ := hfields.exists_intercalate
    rw [List.append_assoc]
    refine accept_of_broken hfields (List.prefix_refl _) ?_ hcomma behind
    rw [hline]
    exact List.cons_ne_nil _ _

end Piece

/-- The fields of the IMU line. -/
theorem imuFields_of_showable {mul : Binary32 → Binary32 → Binary32} {b : Bindings} {m : Program}
    (h : Showable mul b m) (tsMs : UInt32) :
    ImuFields (imuFields m.toMemory tsMs (telemetryBindImu b.imu)) where
  length := rfl
  plain := plain_imuFields fun a ha => (h.imu a ha).finite
  name := rfl
  digit := by
    rintro field ⟨⟩
    have hle : (Nat.toDigits 10 (m.byte b.imu.ready).toNat).length ≤ 1 :=
      (Nat.length_toDigits_le_iff (by decide) (by decide)).mpr h.ready
    have hpos : 0 < (Nat.toDigits 10 (m.byte b.imu.ready).toNat).length :=
      List.length_pos_iff.mpr Nat.toDigits_ne_nil
    exact Nat.le_antisymm hle hpos

end NuedcFirmware.Modules.TelemetryOutput.Capture
