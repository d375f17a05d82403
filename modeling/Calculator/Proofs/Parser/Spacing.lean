/-
What whitespace and invalid characters do to the meaning of a text.

The parser sees neither of them, and what it does see it treats alike wherever it stands.  So two
texts that differ only in the whitespace between their tokens are read as the same tree, with the
same diagnostics and the same value; only the offsets in them differ.  An invalid character is as
good as a space, apart from the diagnostic about it.

* `EvaluationFault.erasePosition`, `Node.evaluate_erasePositions`,
  `Parsed.evaluate_erasePositions` — **evaluation passes offsets on into its faults and does not
  look at them**;
* `TokenStream.spelling`, `Segment.solid` — what is left of a text without its whitespace;
* `Parser.erasePositions_start` — **but for offsets the parser begins with what is left**;
* `layout_keeps_meaning` — texts with the same spelling;
* `Parser.bare`, `Parser.readAll_start` — the parser that knows nothing of the faults of the lexer;
* `Text.isInvalid`, `Segment.faults_blankInvalid` — invalid characters, and the faults of a text
  with spaces in their place;
* `invalid_characters_as_spaces` — a text with its invalid characters blanked out.
-/

import Calculator.Proofs.Evaluation.Machine
import Calculator.Proofs.Lexer.Visible
import Calculator.Proofs.Parser.Disguise

set_option relaxedAutoImplicit false
set_option autoImplicit false

namespace Calculator

/-! ### Evaluation without offsets -/

/-- The fault without the offset that it names. -/
def InternalFault.erasePosition : InternalFault → InternalFault
  | missingValue _ => missingValue 0
  | fault => fault

/-- The fault without the offset that it names. -/
def EvaluationFault.erasePosition : EvaluationFault → EvaluationFault
  | divisionByZero _ => divisionByZero 0
  | internal fault => internal fault.erasePosition
  | rejected diagnostics => rejected diagnostics

namespace Token

theorem number_erasePosition (token : Token) :
    token.erasePosition.number = token.number.mapError EvaluationFault.erasePosition := by
  rw [number, number, erasePosition]
  cases token.value <;> rfl

theorem operate_erasePosition (operator : Token) (left right : Int) :
    operator.erasePosition.operate left right =
      (operator.operate left right).mapError EvaluationFault.erasePosition := by
  rw [operate, operate, erasePosition]
  cases operator.kind with
  | divide => by_cases hzero : right = 0 <;> simp only [hzero, ↓reduceIte] <;> rfl
  | _ => rfl

end Token

namespace Node

/-- A tree without offsets has the same value, or the same fault without its offset. -/
theorem meaning_erasePositions (node : Node) :
    node.erasePositions.meaning = node.meaning.mapError EvaluationFault.erasePosition := by
  rw [erasePositions]
  induction node with
  | leaf token => rfl
  | number token => exact token.number_erasePosition
  | binary left operator right ihLeft ihRight =>
      rw [mapTokens, meaning, meaning, ihLeft, ihRight]
      cases left.meaning with
      | error fault => rfl
      | ok leftValue =>
          cases right.meaning with
          | error fault => rfl
          | ok rightValue => exact operator.operate_erasePosition leftValue rightValue
  | parenthesized opening inner closing ih => exact ih

theorem evaluate_erasePositions (node : Node) :
    node.erasePositions.evaluate = node.evaluate.mapError EvaluationFault.erasePosition := by
  rw [evaluate_eq_meaning, evaluate_eq_meaning, meaning_erasePositions]

end Node

/-- With the diagnostics as a gate, which they are without offsets too, it is the same. -/
theorem Parsed.evaluate_erasePositions (parsed : Parsed) :
    parsed.erasePositions.evaluate = parsed.evaluate.mapError EvaluationFault.erasePosition := by
  have hgate : parsed.erasePositions.hasDiagnostics = parsed.hasDiagnostics := rfl
  rw [evaluate, evaluate, hgate]
  cases parsed.hasDiagnostics with
  | true => rfl
  | false => exact parsed.root.evaluate_erasePositions

/-! ### Texts without their whitespace -/

/-- The kinds and the texts of all tokens of the stream but whitespace. -/
def TokenStream.spelling (stream : TokenStream) : List (Kind × String) :=
  (stream.tokens.toList.filter (·.kind ≠ .whitespace)).map fun token => (token.kind, token.text)

namespace Segment

/-- The segments of the text that are not whitespace. -/
def solid (text : List Char) : List Segment :=
  (cut text).filter (·.kind ≠ .whitespace)

theorem spelling_stream (text : List Char) :
    (stream text).spelling =
      (solid text).map fun segment => (segment.kind, String.ofList segment.text) := by
  rw [solid, ← map_segment_filter_tokens (fun kind => decide (kind ≠ .whitespace)) (cut text) 0,
    List.map_map, TokenStream.spelling, stream]
  simp [Token.segment]

/-- The spelling of a text determines its segments but for whitespace. -/
theorem solid_eq_of_spelling_eq {first second : List Char}
    (h : (stream first).spelling = (stream second).spelling) : solid first = solid second := by
  rw [spelling_stream, spelling_stream] at h
  refine List.map_injective_iff.2 (fun segment other heq => ?_) h
  obtain ⟨kind, characters⟩ := segment
  obtain ⟨otherKind, others⟩ := other
  rw [Prod.mk.injEq, String.ofList_inj] at heq
  exact (Segment.mk.injEq ..).mpr heq

/-- Whitespace is without fault. -/
theorem faults_eq_solid (text : List Char) :
    faults text = .ofList ((solid text).flatMap diagnostics) := by
  rw [faults, solid, flatMap_filter]
  intro segment hkind
  have hwhitespace : segment.kind = .whitespace := by simpa using hkind
  simp only [diagnostics, hwhitespace]

/-- The parser sees none of the whitespace anyway. -/
theorem filter_isTrivia_solid (text : List Char) :
    (solid text).filter (!·.kind.isTrivia) = (cut text).filter (!·.kind.isTrivia) := by
  rw [solid, List.filter_filter]
  refine List.filter_congr fun segment _ => ?_
  cases segment.kind <;> rfl

end Segment

namespace Parser

/-- But for offsets the parser begins with what is left of a text without its whitespace. -/
theorem erasePositions_start (text : List Char) :
    (start text).erasePositions =
      { stream :=
          { tokens := (((Segment.solid text).filter (!·.kind.isTrivia)).map (·.token 0)).toArray
            endPosition := 0 }
        diagnostics := .ofList ((Segment.solid text).flatMap Segment.diagnostics) } := by
  have htokens : ((Segment.tokens (Segment.cut text) 0).filter (!·.kind.isTrivia)).map
      Token.erasePosition =
        ((Segment.solid text).filter (!·.kind.isTrivia)).map (·.token 0) := by
    rw [Segment.filter_isTrivia_solid, ← Segment.map_segment_visible text 0, List.map_map]
    refine List.map_congr_left fun token hmem => ?_
    exact Segment.erasePosition_of_mem_tokens (List.mem_filter.1 hmem).1
  rw [erasePositions, start, TokenStream.erasePositions, TokenStream.withoutTrivia, Segment.stream,
    Segment.faults_eq_solid, List.filter_toArray, List.map_toArray, htokens]

end Parser

/-! ### Texts with the same spelling -/

/-- Two texts whose tokens other than whitespace have the same kinds and texts are parsed as the
same tree, but for offsets, with the same diagnostics.  Evaluation, with the diagnostics as a gate
and without it, yields the same value or the same fault, but for the offset that it names. -/
theorem layout_keeps_meaning (first second : String)
    (hfirst : Text.DigitRunsWithin 4300 first.toList)
    (hsecond : Text.DigitRunsWithin 4300 second.toList) :
    ∃ firstStream firstLog secondStream secondLog,
      tokenize first = .ok (firstStream, firstLog) ∧
      tokenize second = .ok (secondStream, secondLog) ∧
      (firstStream.spelling = secondStream.spelling →
        ∃ firstParsed secondParsed,
          parse first = .ok firstParsed ∧ parse second = .ok secondParsed ∧
          firstParsed.diagnostics = secondParsed.diagnostics ∧
          firstParsed.root.erasePositions = secondParsed.root.erasePositions ∧
          firstParsed.evaluate.mapError EvaluationFault.erasePosition =
            secondParsed.evaluate.mapError EvaluationFault.erasePosition ∧
          firstParsed.root.evaluate.mapError EvaluationFault.erasePosition =
            secondParsed.root.evaluate.mapError EvaluationFault.erasePosition) := by
  refine ⟨_, _, _, _, tokenize_eq hfirst, tokenize_eq hsecond, fun hspelling => ?_⟩
  refine ⟨_, _, parse_eq hfirst, parse_eq hsecond, ?_⟩
  have hstart : (Parser.start first.toList).erasePositions =
      (Parser.start second.toList).erasePositions := by
    rw [Parser.erasePositions_start, Parser.erasePositions_start,
      Segment.solid_eq_of_spelling_eq hspelling]
  have hparsed := Parser.readAll_erasePositions (Parser.start first.toList)
  rw [hstart, Parser.readAll_erasePositions] at hparsed
  generalize (Parser.start first.toList).readAll.1 = firstParsed at hparsed
  generalize (Parser.start second.toList).readAll.1 = secondParsed at hparsed
  obtain ⟨hroot, -, hnotes⟩ := Parsed.mk.inj hparsed.symm
  refine ⟨hnotes, hroot, ?_, ?_⟩
  · rw [← Parsed.evaluate_erasePositions, ← Parsed.evaluate_erasePositions, hparsed]
  · rw [← Node.evaluate_erasePositions, ← Node.evaluate_erasePositions, hroot]

/-- In `4 /(0` and `4/ ( 0 ` the same parenthesis is missing.  The first division by zero is at the
offset 2, the second one at the offset 1. -/
theorem layout_keeps_meaning_unclosed :
    Text.DigitRunsWithin 4300 "4 /(0".toList ∧ Text.DigitRunsWithin 4300 "4/ ( 0 ".toList ∧
      ∃ first second, parse "4 /(0" = .ok first ∧ parse "4/ ( 0 " = .ok second ∧
        first.diagnostics = second.diagnostics ∧
        first.root.evaluate = .error (.divisionByZero 2) ∧
        second.root.evaluate = .error (.divisionByZero 1) ∧
        first.root.evaluate.mapError EvaluationFault.erasePosition =
          second.root.evaluate.mapError EvaluationFault.erasePosition := by
  have hfirst : Text.DigitRunsWithin 4300 "4 /(0".toList :=
    Text.digitRunsWithin_of_length_le (by decide)
  have hsecond : Text.DigitRunsWithin 4300 "4/ ( 0 ".toList :=
    Text.digitRunsWithin_of_length_le (by decide)
  obtain ⟨firstStream, _, secondStream, _, htokensFirst, htokensSecond, hmeaning⟩ :=
    layout_keeps_meaning _ _ hfirst hsecond
  have hspelling : (tokenize "4 /(0").map (·.1.spelling) =
      (tokenize "4/ ( 0 ").map (·.1.spelling) := by
    decide +kernel
  rw [htokensFirst, htokensSecond] at hspelling
  obtain ⟨first, second, hparseFirst, hparseSecond, hnotes, -, -, hvalue⟩ :=
    hmeaning (Except.ok.inj hspelling)
  have hevaluateFirst : (parse "4 /(0").map (·.root.evaluate) =
      .ok (.error (.divisionByZero 2)) := by
    decide +kernel
  have hevaluateSecond : (parse "4/ ( 0 ").map (·.root.evaluate) =
      .ok (.error (.divisionByZero 1)) := by
    decide +kernel
  rw [hparseFirst] at hevaluateFirst
  rw [hparseSecond] at hevaluateSecond
  exact ⟨hfirst, hsecond, first, second, hparseFirst, hparseSecond, hnotes,
    Except.ok.inj hevaluateFirst, Except.ok.inj hevaluateSecond, hvalue⟩

/-! ### Texts with the same visible tokens -/

namespace Parser

/-- The parser at the beginning of the text that does not know of the faults found by the lexer. -/
def bare (text : List Char) : Parser :=
  { stream := { tokens := (Segment.visible text 0).toArray, endPosition := text.length } }

/-- Only what the parser sees matters, and where it stands. -/
theorem bare_map {f : Char → Char} (hf : Kind.ChangesTriviaOnly f) (text : List Char) :
    bare (text.map f) = bare text := by
  rw [bare, bare, Segment.visible_map hf, List.length_map]

theorem start_eq_noting (text : List Char) :
    start text = (bare text).noting (Segment.faults text).toList := by
  have hlog : DiagnosticLog.ofList ((Segment.faults text).toList ++ []) = Segment.faults text :=
    DiagnosticLog.ext_toList (by simp)
  rw [start, noting, bare, TokenStream.withoutTrivia, Segment.stream, List.filter_toArray,
    ← Segment.visible]
  dsimp only
  rw [DiagnosticLog.toList_empty, hlog]

/-- What is read of a text depends on the tokens that the parser sees and on the length of the text.
The faults found by the lexer come first among the diagnostics. -/
theorem readAll_start (text : List Char) :
    (start text).readAll.1 =
      { (bare text).readAll.1 with
        diagnostics := (Segment.faults text).toList ++ (bare text).readAll.1.diagnostics } := by
  rw [start_eq_noting, readAll_noting]

/-- The parser itself notes nothing about invalid characters. -/
theorem not_isInvalidCharacter_of_mem_bare {text : List Char} {diagnostic : Diagnostic}
    (h : diagnostic ∈ (bare text).readAll.1.diagnostics) :
    diagnostic.isInvalidCharacter = false := by
  obtain ⟨after, notes, -, htrace, hend⟩ := readAll_cases (bare text)
  have hnotes : ∀ note ∈ notes, note.isInvalidCharacter = false := by
    intro note hmem
    obtain ⟨kind, found, -, rfl⟩ := htrace.exists_complaint hmem
    rw [complaint]
    split <;> rfl
  have hempty : (bare text).diagnostics.toList = [] := rfl
  rcases hend with ⟨-, -, hdiagnostics⟩ | ⟨-, -, hdiagnostics⟩ <;>
    rw [hdiagnostics, hempty, List.nil_append] at h
  · exact hnotes diagnostic h
  · rcases List.mem_append.1 h with hmem | hmem
    · exact hnotes diagnostic hmem
    · rw [List.mem_singleton.1 hmem]
      rfl

end Parser

/-! ### Texts without invalid characters -/

/-- Is the character neither a digit nor a blank, and no operator or parenthesis? -/
def Text.isInvalid (c : Char) : Bool :=
  !(isDigit c || isBlank c || c ∈ ['+', '-', '*', '/', '(', ')'])

theorem Text.isInvalid_iff {c : Char} : isInvalid c = true ↔ Kind.ofChar c = .invalid := by
  rw [Kind.ofChar_eq_invalid_iff, isInvalid]
  simp [Kind.symbols, and_assoc]

theorem Text.isTrivia_of_isInvalid (c : Char) (h : isInvalid c = true) :
    (Kind.ofChar c).isTrivia = true := by
  rw [isInvalid_iff.1 h]
  rfl

/-- Where invalid characters are blanked out none is left. -/
theorem Text.ofChar_blankInvalid_ne (c : Char) :
    Kind.ofChar (blankOut isInvalid c) ≠ .invalid := by
  rw [blankOut]
  split
  · decide
  · next hvalid => exact fun hkind => hvalid (isInvalid_iff.2 hkind)

namespace Segment

/-- With its invalid characters blanked out a text has the faults that do not come from them. -/
theorem faults_blankInvalid (text : List Char) :
    (faults (text.map (Text.blankOut Text.isInvalid))).toList =
      (faults text).toList.filter (!·.isInvalidCharacter) := by
  have hvisible : visible (text.map (Text.blankOut Text.isInvalid)) 0 = visible text 0 :=
    visible_map (.blankOut Text.isTrivia_of_isInvalid) text 0
  have hvalid : ∀ c ∈ text.map (Text.blankOut Text.isInvalid), Kind.ofChar c ≠ .invalid := by
    intro c hc
    obtain ⟨d, -, rfl⟩ := List.mem_map.1 hc
    exact Text.ofChar_blankInvalid_ne d
  generalize text.map (Text.blankOut Text.isInvalid) = blanked at hvisible hvalid
  have hnone : blanked.filter (Kind.ofChar · = .invalid) = [] :=
    List.filter_eq_nil_iff.2 fun c hc => by simpa using hvalid c hc
  have hclean := filter_isInvalidCharacter_faults blanked
  rw [hnone, List.map_nil, List.filter_eq_nil_iff] at hclean
  have hself : (faults blanked).toList.filter (!·.isInvalidCharacter) = (faults blanked).toList :=
    List.filter_eq_self.2 fun diagnostic hmem => by simpa using hclean diagnostic hmem
  rw [← hself, filter_not_isInvalidCharacter_faults, filter_not_isInvalidCharacter_faults,
    ← map_segment_visible _ 0, ← map_segment_visible _ 0, hvisible]

end Segment

/-- With its invalid characters blanked out a text is parsed as the same tree, with the same offsets
and the same value.  Of the diagnostics exactly those about invalid characters are gone, of which
there was one for each invalid character, in their order. -/
theorem invalid_characters_as_spaces (text : String)
    (hruns : Text.DigitRunsWithin 4300 text.toList) :
    ∃ parsed blanked, parse text = .ok parsed ∧
      parse (text.map (Text.blankOut Text.isInvalid)) = .ok blanked ∧
      blanked.root = parsed.root ∧ blanked.endOfFile = parsed.endOfFile ∧
      blanked.root.evaluate = parsed.root.evaluate ∧
      blanked.diagnostics = parsed.diagnostics.filter (!·.isInvalidCharacter) ∧
      parsed.diagnostics.filter (·.isInvalidCharacter) =
        (text.toList.filter Text.isInvalid).map
          fun c => .invalidCharacter (String.singleton c) := by
  have hreadable : Segment.Readable text.toList := fun segment hmem =>
    Segment.not_isOverlong hruns hmem
  have hblanked := Segment.readable_map (.blankOut Text.isTrivia_of_isInvalid) hreadable
  have hinvalid : Text.isInvalid = fun c => decide (Kind.ofChar c = .invalid) :=
    funext fun c => Bool.eq_iff_iff.2 (by rw [Text.isInvalid_iff, decide_eq_true_eq])
  have hnotes := @Parser.not_isInvalidCharacter_of_mem_bare text.toList
  rw [← String.toList_map] at hblanked
  refine ⟨_, _, parse_of_readable hreadable, parse_of_readable hblanked, ?_⟩
  rw [String.toList_map, Parser.readAll_start, Parser.readAll_start,
    Parser.bare_map (.blankOut Text.isTrivia_of_isInvalid)]
  generalize (Parser.bare text.toList).readAll.1 = parsed at hnotes
  refine ⟨rfl, rfl, rfl, ?_, ?_⟩ <;> dsimp only <;> rw [List.filter_append]
  · have hkept : parsed.diagnostics.filter (!·.isInvalidCharacter) = parsed.diagnostics :=
      List.filter_eq_self.2 fun diagnostic hmem => by simp [hnotes hmem]
    rw [hkept, Segment.faults_blankInvalid]
  · have hnone : parsed.diagnostics.filter (·.isInvalidCharacter) = [] :=
      List.filter_eq_nil_iff.2 fun diagnostic hmem => by simp [hnotes hmem]
    rw [hnone, List.append_nil, Segment.filter_isInvalidCharacter_faults, hinvalid]

/-- Two invalid characters are noted about `(1_2$`, and then that the parenthesis and the end mark
are missing.  The first of the two parts two numbers, and the space in its place does so too. -/
theorem invalid_characters_as_spaces_unclosed :
    Text.DigitRunsWithin 4300 "(1_2$".toList ∧
      ∃ parsed blanked, parse "(1_2$" = .ok parsed ∧ parse "(1 2 " = .ok blanked ∧
        blanked.root = parsed.root ∧
        parsed.diagnostics = [.invalidCharacter "_", .invalidCharacter "$",
          .unexpectedToken .closeParenthesis .number, .unexpectedToken .endOfFile .number] ∧
        blanked.diagnostics =
          [.unexpectedToken .closeParenthesis .number, .unexpectedToken .endOfFile .number] := by
  have hruns : Text.DigitRunsWithin 4300 "(1_2$".toList :=
    Text.digitRunsWithin_of_length_le (by decide)
  have htext : "(1_2$".map (Text.blankOut Text.isInvalid) = "(1 2 " := by decide +kernel
  have hresult : (parse "(1_2$").map Parsed.diagnostics =
      .ok [.invalidCharacter "_", .invalidCharacter "$",
        .unexpectedToken .closeParenthesis .number, .unexpectedToken .endOfFile .number] := by
    decide +kernel
  obtain ⟨parsed, blanked, hparse, hblanked, hroot, -, -, hkept, -⟩ :=
    invalid_characters_as_spaces _ hruns
  rw [htext] at hblanked
  rw [hparse] at hresult
  have hnotes := Except.ok.inj hresult
  refine ⟨hruns, parsed, blanked, hparse, hblanked, hroot, hnotes, ?_⟩
  rw [hkept, hnotes]
  rfl

end Calculator
