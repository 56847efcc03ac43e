import NuedcFirmware.Lib.Decimal
import NuedcFirmware.Modules.Telemetry

/-!
The duty command `$DUTY,left,right[,hold]` and the texts it accepts.

`DutyText` is the grammar: two decimal integers that fit 16 bits, and a hold time if there
is a second comma. On such a text the command posts what is written. Of any other text it
only notices when the first comma is missing.
-/

namespace NuedcFirmware.Modules.DutyCommand

open NuedcFirmware.Lib

/-- A text writes a duty, which has 16 bits. -/
structure DutyNumeral (s : List UInt8) (n : ℤ) : Prop where
  numeral : Numeral s n
  lower : -32768 ≤ n
  upper : n ≤ 32767

/-- A text behind `$DUTY,` writes a request: left and right duty, and the hold time or
nothing. -/
inductive DutyText : List UInt8 → TelemetryDutyRequest → Prop
  | pair {left right : List UInt8} {leftPwm rightPwm : ℤ} :
      DutyNumeral left leftPwm → DutyNumeral right rightPwm →
        DutyText (left ++ comma :: right) ⟨leftPwm, rightPwm, 800⟩
  | held {left right hold : List UInt8} {leftPwm rightPwm : ℤ} {holdMs : UInt32} :
      DutyNumeral left leftPwm → DutyNumeral right rightPwm → Numeral hold holdMs.toNat →
        DutyText (left ++ comma :: (right ++ comma :: hold)) ⟨leftPwm, rightPwm, holdMs⟩

/-- The replies are one line with this beginning. -/
def Begins (start : String) (replies : List String) : Prop := ∃ rest, replies = [start ++ rest]

/-- The line `$DUTY,` with a text behind it, which ends where the line ends, is answered
with `$OK` and posts what is written if the text is in the grammar; if not it is answered
with `$ERR` and posts nothing. -/
structure AnsweredExactly (text : List UInt8) (t : Telemetry) : Prop where
  accepted : ∀ request, DutyText (lineText text) request →
    let answer := handleLine (ascii "$DUTY," ++ text) t
    Begins "$OK" answer.2 ∧ answer.1.dutyRequest = request ∧ answer.1.dutyRequestPending = true
  refused : (∀ request, ¬ DutyText (lineText text) request) →
    let answer := handleLine (ascii "$DUTY," ++ text) t
    Begins "$ERR" answer.2 ∧ answer.1.dutyRequest = t.dutyRequest ∧
      answer.1.dutyRequestPending = t.dutyRequestPending

/-! ### Texts of the grammar -/

section Text

variable {s : List UInt8} {n : ℤ}

theorem comma_notMem_numeral (h : Numeral s n) : comma ∉ s := by
  intro hmem
  have hbytes := h.bytes comma hmem
  exact absurd hbytes (by decide)

theorem toInt16_parseI16 (h : DutyNumeral s n) : toInt16 (parseI16 s) = n := by
  have hlower := h.lower
  have hupper := h.upper
  rw [parseI16, strtol_of_numeral h.numeral (by omega) (by omega)]
  exact toInt16_of_mem (by omega) (by omega)

/-- A text of the grammar gives the arguments it writes. -/
theorem dutyArguments_of_dutyText {request : TelemetryDutyRequest} (h : DutyText s request) :
    dutyArguments s = some request := by
  cases h with
  | pair hleft hright =>
      simp only [dutyArguments, cutAt_append (comma_notMem_numeral hleft.numeral), Option.map_some,
        cutAt_of_notMem (comma_notMem_numeral hright.numeral), toInt16_parseI16 hleft,
        toInt16_parseI16 hright, Option.map_none, Option.getD_none]
  | held hleft hright hhold =>
      simp only [dutyArguments, cutAt_append (comma_notMem_numeral hleft.numeral), Option.map_some,
        cutAt_append (comma_notMem_numeral hright.numeral), toInt16_parseI16 hleft,
        toInt16_parseI16 hright, strtoul_of_numeral hhold, Option.getD_some]

end Text

/-! ### What the command does -/

theorem dutyArguments_of_notMem {args : List UInt8} (h : comma ∉ args) :
    dutyArguments args = none := by
  simp only [dutyArguments, cutAt_of_notMem h, Option.map_none]

theorem dutyArguments_of_mem {args : List UInt8} (h : comma ∈ args) :
    ∃ request, dutyArguments args = some request := by
  obtain ⟨behind, hbehind⟩ := cutAt_of_mem h
  simp only [dutyArguments, hbehind, Option.map_some]
  exact ⟨_, rfl⟩

theorem lineText_dutyLine (text : List UInt8) :
    lineText (ascii "$DUTY," ++ text) = ascii "$DUTY," ++ lineText text := by
  have hkept : (ascii "$DUTY,").all (fun c => c ≠ 0 && c ≠ 13 && c ≠ 10) = true := rfl
  exact List.takeWhile_append_of_pos (List.all_eq_true.mp hkept)

theorem parseCommand_dutyLine (args : List UInt8) :
    parseCommand (ascii "$DUTY," ++ args) = .duty args := rfl

theorem handleLine_dutyLine (text : List UInt8) (t : Telemetry) :
    handleLine (ascii "$DUTY," ++ text) t = handleDuty (lineText text) t := by
  rw [handleLine, lineText_dutyLine, parseCommand_dutyLine, runCommand]

/-- The replies go with the arguments. -/
theorem begins_handleDuty (args : List UInt8) (t : Telemetry) :
    (∀ request, dutyArguments args = some request → Begins "$OK" (handleDuty args t).2) ∧
      (dutyArguments args = none → Begins "$ERR" (handleDuty args t).2) := by
  rw [dutyArguments, handleDuty]
  rcases cutAt comma args with ⟨left, _ | p1⟩
  · exact ⟨fun _ h => (by cases h), fun _ => ⟨",duty,parse\r\n", rfl⟩⟩
  · rcases hcut : cutAt comma p1 with ⟨right, p2⟩
    refine ⟨fun _ _ => ⟨",duty," ++ toString (toInt16 (parseI16 left)) ++ "," ++
      toString (toInt16 (parseI16 right)) ++ "," ++ toString (p2.elim 800 strtoul) ++ "\r\n", ?_⟩,
      fun h => by cases h⟩
    simp only [String.append_assoc, hcut]
    cases p2 <;> rfl

theorem not_begins_of_begins {replies : List String} (h : Begins "$OK" replies) :
    ¬ Begins "$ERR" replies := by
  obtain ⟨rest, rfl⟩ := h
  rintro ⟨rest', h⟩
  have hbytes := congrArg String.toList (List.cons.inj h).1
  rw [String.toList_append, String.toList_append] at hbytes
  simp at hbytes

/-- With a comma the command posts something and says so. -/
theorem posts_of_mem {text : List UInt8} (t : Telemetry) (h : comma ∈ lineText text) :
    Begins "$OK" (handleLine (ascii "$DUTY," ++ text) t).2 := by
  obtain ⟨request, hrequest⟩ := dutyArguments_of_mem h
  rw [handleLine_dutyLine]
  exact (begins_handleDuty _ t).1 request hrequest

theorem comma_mem_of_dutyText {s : List UInt8} {request : TelemetryDutyRequest}
    (h : DutyText s request) : comma ∈ s := by
  cases h <;> exact List.mem_append_right _ List.mem_cons_self

theorem answeredExactly_of_dutyText {text : List UInt8} {request : TelemetryDutyRequest}
    (t : Telemetry) (h : DutyText (lineText text) request) : AnsweredExactly text t where
  accepted request' h' := by
    have hrequest := dutyArguments_of_dutyText h'
    have hposted := handleDuty_fst (lineText text) t
    rw [hrequest] at hposted
    rw [handleLine_dutyLine]
    exact ⟨(begins_handleDuty _ t).1 request' hrequest, congrArg Telemetry.dutyRequest hposted,
      congrArg Telemetry.dutyRequestPending hposted⟩
  refused hnone := absurd h (hnone request)

theorem answeredExactly_of_notMem {text : List UInt8} (t : Telemetry)
    (h : comma ∉ lineText text) : AnsweredExactly text t where
  accepted request hrequest := absurd (comma_mem_of_dutyText hrequest) h
  refused _ := by
    have hrequest := dutyArguments_of_notMem h
    have hposted := handleDuty_fst (lineText text) t
    rw [hrequest] at hposted
    rw [handleLine_dutyLine]
    exact ⟨(begins_handleDuty _ t).2 hrequest, congrArg Telemetry.dutyRequest hposted,
      congrArg Telemetry.dutyRequestPending hposted⟩

/-- For every text and in every state: the command is answered exactly if and only if the
text is in the grammar or has no comma. -/
theorem answeredExactly_iff (text : List UInt8) (t : Telemetry) :
    AnsweredExactly text t ↔
      (∃ request, DutyText (lineText text) request) ∨ comma ∉ lineText text := by
  refine ⟨fun h => ?_, ?_⟩
  · by_contra hneither
    obtain ⟨hnone, hcomma⟩ := not_or.mp hneither
    have hok := posts_of_mem t (not_not.mp hcomma)
    exact not_begins_of_begins hok (h.refused (not_exists.mp hnone)).1
  · rintro (⟨request, hrequest⟩ | hcomma)
    · exact answeredExactly_of_dutyText t hrequest
    · exact answeredExactly_of_notMem t hcomma

/-- The left duty of the grammar is what the text before the first comma writes. -/
theorem dutyNumeral_of_dutyText {s : List UInt8} {request : TelemetryDutyRequest}
    (h : DutyText s request) : DutyNumeral (cutAt comma s).1 request.leftPwm := by
  cases h with
  | pair hleft hright =>
      rw [cutAt_append (comma_notMem_numeral hleft.numeral)]
      exact hleft
  | held hleft hright hhold =>
      rw [cutAt_append (comma_notMem_numeral hleft.numeral)]
      exact hleft

/-- A duty of 70000 does not fit: it is accepted as 4464. -/
theorem accepted_wrapped :
    (handleLine (ascii "$DUTY,70000,300") .initial).1.dutyRequest = ⟨4464, 300, 800⟩ ∧
      ¬ AnsweredExactly (ascii "70000,300") .initial := by
  refine ⟨by decide, fun h => ?_⟩
  have hnone : ∀ request, ¬ DutyText (lineText (ascii "70000,300")) request := by
    intro request htext
    have hleft := dutyNumeral_of_dutyText htext
    have hupper := hleft.upper
    have hvalue := strtol_of_numeral hleft.numeral (by have := hleft.lower; omega) (by omega)
    have hread : strtol (cutAt comma (lineText (ascii "70000,300"))).1 = 70000 := by decide
    omega
  have hok : Begins "$OK" (handleLine (ascii "$DUTY," ++ ascii "70000,300") .initial).2 :=
    posts_of_mem .initial (by decide)
  exact not_begins_of_begins hok (h.refused hnone).1

end NuedcFirmware.Modules.DutyCommand
