/-
What the tokens of a text are worth, and what is noted about them.

A number token is worth what its digits denote in decimal notation, whatever scripts they belong to
and however many zeros stand in front, or zero if that is out of range.  The log of a lexer that has
read its text holds one entry for each number out of range and for each invalid character, and
nothing else.

* `Token.IsFaulty`, `Token.notes` — the tokens about which something is noted, and what it is;
* `Segment.notes_token`, `Segment.notes_tokens` — the faults of segments are those of their tokens;
* `Lexer.drain_values_exact` — **the values of the tokens and the log of the lexer**.
-/

import Calculator.Proofs.Lexer.Session
import Calculator.Proofs.Text.Digit

set_option relaxedAutoImplicit false
set_option autoImplicit false

namespace Calculator

/-! ### Tokens -/

namespace Token

/-- Is the token an invalid character or a number above the signed 32-bit range? -/
def IsFaulty (token : Token) : Prop :=
  token.kind = .invalid ∨
    token.kind = .number ∧ Word32.maximum < Text.positionalValue token.text.toList

/-- What is noted about the token, word by word. -/
def notes (token : Token) : List String :=
  match token.kind with
  | .invalid => ["Invalid character input '" ++ token.text ++ "'"]
  | .number =>
      if Word32.maximum < Text.positionalValue token.text.toList then
        ["Text " ++ token.text ++ " is not a valid int32"]
      else []
  | _ => []

theorem notes_ne_nil_iff {token : Token} : token.notes ≠ [] ↔ token.IsFaulty := by
  cases hkind : token.kind <;> simp [notes, IsFaulty, hkind]

end Token

namespace Segment

/-- A run of digits is worth the number that they denote, or zero if that is out of range. -/
theorem value_of_number {segment : Segment} (h : segment.kind = .number) :
    segment.value =
      some (if Text.positionalValue segment.text ≤ Word32.maximum then
        (Text.positionalValue segment.text : Int) else 0) := by
  rw [value, if_pos h, Text.decimalValue_eq]

/-- The characters of a number token are digits, of any scripts, and its value is the number that
they denote, or zero if that is out of range. -/
theorem digits_of_mem_tokens {text : List Char} {start : Nat} {token : Token}
    (h : token ∈ tokens (cut text) start) (hkind : token.kind = .number) :
    (∀ c ∈ token.text.toList, ∃ d, Text.digitValue? c = some d ∧ d < 10 ∧
        ∃ base ∈ Text.zeros, c.toNat = base + d) ∧
      token.value =
        some (if Text.positionalValue token.text.toList ≤ Word32.maximum then
          (Text.positionalValue token.text.toList : Int) else 0) := by
  obtain ⟨segment, hmem, offset, rfl, -⟩ := exists_of_mem_tokens h
  have htext : (segment.token (start + offset)).text.toList = segment.text := by
    simp only [token, String.toList_ofList]
  rw [htext]
  refine ⟨fun c hc => ?_, value_of_number hkind⟩
  have hdigit : Text.isDigit c = true :=
    Kind.ofChar_eq_number_iff.1 (((kind_of_mem_cut hmem).2 c hc).trans hkind)
  obtain ⟨d, hd⟩ := Option.isSome_iff_exists.1 hdigit
  exact ⟨d, hd, Text.digitValue?_eq_some_iff.1 hd⟩

/-- No other token of a text has a value. -/
theorem value_eq_none_of_mem_tokens {text : List Char} {start : Nat} {token : Token}
    (h : token ∈ tokens (cut text) start) (hkind : token.kind ≠ .number) : token.value = none := by
  obtain ⟨segment, -, offset, rfl, -⟩ := exists_of_mem_tokens h
  exact if_neg hkind

/-- What is noted about a segment that can be read is what is noted about its token. -/
theorem notes_token {segment : Segment} (h : segment.isOverlong = false) (position : Nat) :
    (segment.token position).notes = segment.diagnostics.map Diagnostic.message := by
  cases hkind : segment.kind with
  | number =>
      simp only [Token.notes, token, diagnostics, hkind, h, Text.decimalValue_eq,
        String.toList_ofList, Bool.false_or, decide_eq_true_eq]
      by_cases hrange : (Text.positionalValue segment.text : Int) ≤ Word32.maximum
      · rw [if_neg (Int.not_lt.2 hrange), if_pos hrange, List.map_nil]
      · rw [if_pos (Int.not_le.1 hrange), if_neg hrange]
        rfl
  | invalid =>
      simp only [Token.notes, token, diagnostics, hkind]
      rfl
  | _ =>
      simp only [Token.notes, token, diagnostics, hkind, List.map_nil]

theorem notes_tokens {segments : List Segment}
    (h : ∀ segment ∈ segments, segment.isOverlong = false) (start : Nat) :
    (tokens segments start).flatMap Token.notes =
      (segments.flatMap diagnostics).map Diagnostic.message := by
  induction segments generalizing start with
  | nil => rfl
  | cons segment segments ih =>
      obtain ⟨hsegment, hsegments⟩ := List.forall_mem_cons.1 h
      rw [tokens, List.flatMap_cons, notes_token hsegment, ih hsegments, List.flatMap_cons,
        List.map_append]

end Segment

/-! ### Main result -/

namespace Lexer

theorem hasDiagnostics_iff {lexer : Lexer} :
    lexer.hasDiagnostics = true ↔ lexer.diagnostics.messages ≠ [] := by
  simp [hasDiagnostics, DiagnosticLog.isEmpty, DiagnosticLog.messages, DiagnosticLog.toList]

/-- Draining a lexer that can read all of its text yields the tokens of the text, and leaves the
lexer at the end of the text with the faults in it noted. -/
theorem exists_drain_of_readable {lexer : Lexer} (h : Segment.Readable lexer.text) :
    ∃ stream, lexer.drain = (.ok stream, behind lexer.text (Segment.cut lexer.text)) ∧
      stream.toList = (Segment.stream lexer.text).toList := by
  have hdrain : (lexer.drain.1.map TokenStream.toList, lexer.drain.2) =
      (.ok (Segment.stream lexer.text).toList, behind lexer.text (Segment.cut lexer.text)) :=
    (drain_eq_readToEnd lexer).trans (readToEnd_of_readable h)
  obtain ⟨hanswer, hafter⟩ := Prod.mk.inj hdrain
  cases hcase : lexer.drain.1 with
  | error fault =>
      rw [hcase] at hanswer
      cases hanswer
  | ok stream =>
      rw [hcase] at hanswer
      exact ⟨stream, Prod.ext hcase hafter, Except.ok.inj hanswer⟩

/-- A text without a run of more than 4300 digits is read to its end mark.  Then each number token
holds digits only and is worth the number that they denote, or zero if that is out of range, and no
other token has a value.  The lexer has noted, in the order of the tokens, that a character is
invalid or that a number is out of range, for each token of which that is true and for no other. -/
theorem drain_values_exact (lexer : Lexer) (hruns : Text.DigitRunsWithin 4300 lexer.text) :
    ∃ stream after, lexer.drain = (.ok stream, after) ∧
      lexer.reset.readToEnd = (.ok stream.toList, after) ∧
      (∀ token ∈ stream.toList, token.kind = .number →
        (∀ c ∈ token.text.toList, ∃ d, Text.digitValue? c = some d ∧ d < 10 ∧
            ∃ base ∈ Text.zeros, c.toNat = base + d) ∧
          token.value =
            some (if Text.positionalValue token.text.toList ≤ Word32.maximum then
              (Text.positionalValue token.text.toList : Int) else 0)) ∧
      (∀ token ∈ stream.toList, token.kind ≠ .number → token.value = none) ∧
      after.diagnostics.messages = stream.toList.flatMap Token.notes ∧
      (after.hasDiagnostics = true ↔ ∃ token ∈ stream.toList, token.IsFaulty) := by
  have hreadable : Segment.Readable lexer.text := fun _ hmem => Segment.not_isOverlong hruns hmem
  obtain ⟨stream, hdrain, hstream⟩ := exists_drain_of_readable hreadable
  have htokens : stream.toList =
      Segment.tokens (Segment.cut lexer.text) 0 ++ [Token.endAt lexer.text.length] := by
    rw [hstream, Segment.toList_stream]
  have hnotes : (behind lexer.text (Segment.cut lexer.text)).diagnostics.messages =
      stream.toList.flatMap Token.notes := by
    have hend : (Token.endAt lexer.text.length).notes = [] := rfl
    rw [htokens, List.flatMap_append, List.flatMap_singleton, hend, List.append_nil,
      Segment.notes_tokens hreadable, behind, DiagnosticLog.messages, DiagnosticLog.toList_ofList]
  have hcases : ∀ token ∈ stream.toList, token ∈ Segment.tokens (Segment.cut lexer.text) 0 ∨
      token = Token.endAt lexer.text.length := by
    rw [htokens]
    simp
  refine ⟨stream, _, hdrain, ?_, ?_, ?_, hnotes, ?_⟩
  · rw [hstream]
    exact readToEnd_of_readable hreadable
  · intro token hmem hkind
    rcases hcases token hmem with hmem | rfl
    · exact Segment.digits_of_mem_tokens hmem hkind
    · cases hkind
  · intro token hmem hkind
    rcases hcases token hmem with hmem | rfl
    · exact Segment.value_eq_none_of_mem_tokens hmem hkind
    · rfl
  · simp only [hasDiagnostics_iff, hnotes, ne_eq, List.flatMap_eq_nil_iff, not_forall,
      exists_prop, ← Token.notes_ne_nil_iff]

/-- The number in front mixes two scripts and is out of range, the one at the end begins with a zero
of each; between them stands an invalid character. -/
theorem drain_values_exact_mixed :
    Text.DigitRunsWithin 4300 "99\u0663999\u06699999 $0\u0660\u0967".toList ∧
      ∃ stream after,
        (Lexer.ofText "99\u0663999\u06699999 $0\u0660\u0967").drain = (.ok stream, after) ∧
        stream.toList.map Token.value = [some 0, none, none, some 1, none] ∧
        after.diagnostics.messages =
          ["Text 99\u0663999\u06699999 is not a valid int32", "Invalid character input '$'"] ∧
        after.hasDiagnostics = true := by
  have hruns : Text.DigitRunsWithin 4300 "99\u0663999\u06699999 $0\u0660\u0967".toList :=
    Text.digitRunsWithin_of_length_le (by decide +kernel)
  obtain ⟨stream, after, hdrain, -, -, -, hnotes, hfaulty⟩ :=
    drain_values_exact (.ofText "99\u0663999\u06699999 $0\u0660\u0967") hruns
  have htokens : (Lexer.ofText "99\u0663999\u06699999 $0\u0660\u0967").drain.1.map
      TokenStream.toList = .ok
        [⟨.number, 0, "99\u0663999\u06699999", some 0⟩, ⟨.whitespace, 11, " ", none⟩,
          ⟨.invalid, 12, "$", none⟩, ⟨.number, 13, "0\u0660\u0967", some 1⟩, Token.endAt 16] := by
    decide +kernel
  rw [hdrain] at htokens
  have hstream := Except.ok.inj htokens
  refine ⟨hruns, stream, after, hdrain, ?_, ?_, hfaulty.2 ⟨⟨.invalid, 12, "$", none⟩, ?_, .inl rfl⟩⟩
  · rw [hstream]
    rfl
  · rw [hnotes, hstream]
    decide +kernel
  · rw [hstream]
    decide +kernel

end Lexer

end Calculator
