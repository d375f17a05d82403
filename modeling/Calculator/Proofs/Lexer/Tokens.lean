/-
The tokens of a text.

If no run of digits is too long to be read, reading a text comes down to its segments: there is one
token for each of them, and the diagnostics are those of the segments in their order.  What holds of
the segments of a text then holds of its tokens.

* `Segment.Readable` — texts without a segment that is too long;
* `tokenize_of_readable`, `tokenize_eq` — **the tokens and the diagnostics of a readable text**;
* `readable_of_tokenize` — only readable texts have tokens;
* `Parser.start`, `parse_eq` — the parser at the beginning of such a text, and its result;
* `Segment.diagnostics_eq_nil_iff`, `Segment.cases_of_mem_diagnostics` — the segments without
  faults, and the faults of the others;
* `Segment.tokens_append`, `Segment.exists_of_mem_tokens` — where in the text a token comes from;
* `Segment.exists_value` — the value of a run of digits;
* `Segment.isWritten_of_mem_tokens`, `Segment.kind_ne_endOfFile_of_mem_tokens`,
  `Segment.value_of_mem_tokens`, `Segment.slash_of_mem_tokens` — what the tokens of a text are like.
-/

import Calculator.Parser
import Calculator.Proofs.Lexer.Segments
import Mathlib.Data.List.TakeWhile

set_option relaxedAutoImplicit false
set_option autoImplicit false

namespace Calculator

namespace Segment

/-! ### Reading all segments -/

@[simp] theorem totalLength_cut (text : List Char) : totalLength (cut text) = text.length := by
  fun_induction cut text with
  | case1 => rfl
  | case2 c rest ih =>
      rw [totalLength, ih, length, ← List.length_append, first_append_afterFirst]

/-- Can all segments of the text be read? -/
def Readable (text : List Char) : Prop :=
  ∀ segment ∈ cut text, segment.isOverlong = false

theorem isOverlong_iff {segment : Segment} :
    segment.isOverlong = true ↔ segment.kind = .number ∧ 4300 < segment.length := by
  simp [isOverlong, maxDigits]

/-- Where no run of digits is too long, every segment can be read. -/
theorem not_isOverlong {text : List Char} (h : Text.DigitRunsWithin maxDigits text)
    {segment : Segment} (hmem : segment ∈ cut text) : segment.isOverlong = false := by
  refine Bool.eq_false_iff.2 fun hoverlong => ?_
  obtain ⟨hnumber, hlong⟩ := isOverlong_iff.1 hoverlong
  have hkind := (kind_of_mem_cut hmem).2
  have hle := h segment.text (infix_of_mem_cut hmem) fun c hc =>
    Kind.ofChar_eq_number_iff.1 ((hkind c hc).trans hnumber)
  exact Nat.not_lt.2 hle hlong

/-- A segment is without fault unless it is an invalid character or a number out of range. -/
theorem diagnostics_eq_nil_iff {segment : Segment} (h : segment.isOverlong = false) :
    segment.diagnostics = [] ↔
      segment.kind ≠ .invalid ∧
        (segment.kind = .number → (Text.decimalValue segment.text : Int) ≤ Word32.maximum) := by
  cases hkind : segment.kind <;> simp [diagnostics, hkind, h]

/-- What is noted about a segment is an invalid character or a number out of range. -/
theorem cases_of_mem_diagnostics {segment : Segment} {diagnostic : Diagnostic}
    (h : diagnostic ∈ segment.diagnostics) :
    (segment.kind = .invalid ∧ diagnostic = .invalidCharacter (String.ofList segment.text)) ∨
      (segment.kind = .number ∧ diagnostic = .invalidNumber (String.ofList segment.text)) := by
  cases hkind : segment.kind with
  | number =>
      simp only [diagnostics, hkind] at h
      split at h
      · cases h
      · exact .inr ⟨rfl, List.mem_singleton.1 h⟩
  | invalid =>
      simp only [diagnostics, hkind] at h
      exact .inl ⟨rfl, List.mem_singleton.1 h⟩
  | _ => simp [diagnostics, hkind] at h

/-! ### Tokens and the text -/

/-- The tokens of segments that follow others begin behind those. -/
theorem tokens_append (first second : List Segment) (start : Nat) :
    tokens (first ++ second) start =
      tokens first start ++ tokens second (start + totalLength first) := by
  induction first generalizing start with
  | nil => rfl
  | cons segment first ih =>
      rw [List.cons_append, tokens, ih, tokens, List.cons_append, totalLength, Nat.add_assoc]

/-- A token is read off a segment that stands in the text at the offset of the token. -/
theorem exists_of_mem_tokens {text : List Char} {start : Nat} {token : Token}
    (h : token ∈ tokens (cut text) start) :
    ∃ segment ∈ cut text, ∃ offset, token = segment.token (start + offset) ∧
      segment.text <+: text.drop offset := by
  fun_induction cut text generalizing start with
  | case1 => cases h
  | case2 c rest ih =>
      rcases List.mem_cons.1 h with rfl | h
      · exact ⟨_, List.mem_cons_self, 0, rfl, _, first_append_afterFirst c rest⟩
      · obtain ⟨segment, hmem, offset, rfl, hprefix⟩ := ih h
        refine ⟨segment, List.mem_cons_of_mem _ hmem, (first c rest).length + offset, ?_, ?_⟩
        · rw [Nat.add_assoc]
        · rwa [← first_append_afterFirst c rest, ← List.drop_drop, length, List.drop_left]

variable {text : List Char} {start : Nat} {token : Token}

/-- The kind of a token is that of a character of the text. -/
theorem exists_kind_of_mem_tokens (h : token ∈ tokens (cut text) start) :
    ∃ c ∈ text, Kind.ofChar c = token.kind := by
  obtain ⟨segment, hmem, offset, rfl, -⟩ := exists_of_mem_tokens h
  obtain ⟨hne, hkind⟩ := kind_of_mem_cut hmem
  obtain ⟨c, more, htext⟩ := List.exists_cons_of_ne_nil hne
  have hc : c ∈ segment.text := htext ▸ List.mem_cons_self
  exact ⟨c, (infix_of_mem_cut hmem).subset hc, hkind c hc⟩

/-- A token of a text has characters, and it begins before the end of the text. -/
theorem isWritten_of_mem_tokens (h : token ∈ tokens (cut text) 0) :
    token.isWritten = true ∧ token.position < text.length := by
  obtain ⟨segment, hmem, offset, rfl, hprefix⟩ := exists_of_mem_tokens h
  have hne := (kind_of_mem_cut hmem).1
  constructor
  · simpa [Token.isWritten, Segment.token] using hne
  · have hlength := hprefix.length_le
    have hpos := List.length_pos_iff.2 hne
    rw [List.length_drop] at hlength
    simp only [Segment.token]
    omega

theorem kind_ne_endOfFile_of_mem_tokens (h : token ∈ tokens (cut text) start) :
    token.kind ≠ .endOfFile := by
  obtain ⟨c, -, hkind⟩ := exists_kind_of_mem_tokens h
  rw [← hkind]
  exact Kind.ofChar_ne_endOfFile c

/-- A run of digits has a value, which is not negative and in the signed 32-bit range. -/
theorem exists_value {segment : Segment} (h : segment.kind = .number) :
    ∃ value, segment.value = some value ∧ 0 ≤ value ∧ value ≤ Word32.maximum := by
  refine ⟨_, if_pos h, ?_⟩
  by_cases hle : (Text.decimalValue segment.text : Int) ≤ Word32.maximum
  · rw [if_pos hle]
    exact ⟨Int.natCast_nonneg _, hle⟩
  · -- a number out of range counts as zero
    rw [if_neg hle]
    decide

/-- A number token of a text has a value, which lies in the signed 32-bit range. -/
theorem value_of_mem_tokens (h : token ∈ tokens (cut text) start) (hkind : token.kind = .number) :
    ∃ value, token.value = some value ∧ Word32.InRange value := by
  obtain ⟨segment, -, offset, rfl, -⟩ := exists_of_mem_tokens h
  obtain ⟨value, hvalue, hlow, hhigh⟩ := exists_value hkind
  have hminimum : Word32.minimum ≤ 0 := by decide
  exact ⟨value, hvalue, Int.le_trans hminimum hlow, hhigh⟩

/-- A division token of a text stands where the text has a slash. -/
theorem slash_of_mem_tokens (h : token ∈ tokens (cut text) 0) (hkind : token.kind = .divide) :
    ∃ offset : Nat, token.position = offset ∧ text[offset]? = some '/' := by
  obtain ⟨segment, hmem, offset, rfl, more, hmore⟩ := exists_of_mem_tokens h
  have hdivide : segment.kind = .divide := hkind
  obtain ⟨c, hc⟩ := eq_singleton_of_mem_cut hmem (by rw [hdivide]; rfl)
  have hslash : Kind.ofChar c = .divide := by
    rw [← hdivide]
    exact (kind_of_mem_cut hmem).2 c (hc ▸ List.mem_cons_self)
  refine ⟨offset, by simp [Segment.token], ?_⟩
  rw [← Kind.ofChar_eq_divide hslash, ← List.head?_drop, ← hmore, hc]
  rfl

end Segment

/-! ### Whole texts -/

/-- The tokens of a text in which every run of digits can be read. -/
def Segment.stream (text : List Char) : TokenStream :=
  { tokens := (Segment.tokens (Segment.cut text) 0).toArray, endPosition := text.length }

/-- The faults in such a text. -/
def Segment.faults (text : List Char) : DiagnosticLog :=
  .ofList ((Segment.cut text).flatMap Segment.diagnostics)

/-- A readable text has the tokens and the faults of its segments. -/
theorem tokenize_of_readable {text : String} (h : Segment.Readable text.toList) :
    tokenize text = .ok (Segment.stream text.toList, Segment.faults text.toList) := by
  have hfind : (Segment.cut text.toList).find? Segment.isOverlong = none :=
    List.find?_eq_none.2 fun segment hmem => by simp [h segment hmem]
  have htake : (Segment.cut text.toList).takeWhile (!·.isOverlong) = Segment.cut text.toList :=
    List.takeWhile_eq_self_iff.2 fun segment hmem => by simp [h segment hmem]
  have hlog : (Lexer.ofText text).diagnostics.clear.extend
        ((Segment.cut text.toList).flatMap Segment.diagnostics) = Segment.faults text.toList :=
    DiagnosticLog.ext_toList (by simp [Segment.faults])
  have hdrain : (Lexer.ofText text).drain =
      (.ok (Segment.stream text.toList),
        { text := text.toList, position := text.toList.length,
          diagnostics := Segment.faults text.toList }) := by
    rw [← hlog, Lexer.drain]
    simp only [Lexer.ofText, hfind, htake, Segment.totalLength_cut, Segment.stream]
  rw [tokenize, hdrain]

theorem tokenize_eq {text : String} (h : Text.DigitRunsWithin Segment.maxDigits text.toList) :
    tokenize text = .ok (Segment.stream text.toList, Segment.faults text.toList) :=
  tokenize_of_readable fun _ hmem => Segment.not_isOverlong h hmem

/-- A text that has tokens is readable. -/
theorem readable_of_tokenize {text : String} {found : TokenStream × DiagnosticLog}
    (h : tokenize text = .ok found) : Segment.Readable text.toList := by
  intro segment hmem
  have hfind : (Segment.cut text.toList).find? Segment.isOverlong = none := by
    cases hcase : (Segment.cut text.toList).find? Segment.isOverlong with
    | none => rfl
    | some overlong => simp [tokenize, Lexer.drain, Lexer.ofText, hcase] at h
  exact Bool.eq_false_iff.2 (List.find?_eq_none.1 hfind segment hmem)

namespace Parser

/-- The parser at the beginning of such a text. -/
def start (text : List Char) : Parser :=
  { stream := (Segment.stream text).withoutTrivia, diagnostics := Segment.faults text }

theorem mem_tokens_of_mem_start {text : List Char} {token : Token}
    (h : token ∈ (start text).stream.tokens) : token ∈ Segment.tokens (Segment.cut text) 0 := by
  rw [start, TokenStream.withoutTrivia, Array.mem_filter, Segment.stream, List.mem_toArray] at h
  exact h.1

theorem isWritten_of_mem_start {text : List Char} {token : Token}
    (h : token ∈ (start text).stream.tokens) : token.isWritten = true :=
  (Segment.isWritten_of_mem_tokens (mem_tokens_of_mem_start h)).1

theorem not_isTrivia_of_mem_start {text : List Char} {token : Token}
    (h : token ∈ (start text).stream.tokens) : token.kind.isTrivia = false := by
  rw [start, TokenStream.withoutTrivia, Array.mem_filter] at h
  simpa using h.2

theorem ofText_of_readable {text : String} (h : Segment.Readable text.toList) :
    ofText text = .ok (start text.toList) := by
  rw [ofText, tokenize_of_readable h, start]

/-- A parser at the beginning of a text has a readable text. -/
theorem readable_of_ofText {text : String} {parser : Parser} (h : ofText text = .ok parser) :
    Segment.Readable text.toList := by
  cases hcase : tokenize text with
  | ok found => exact readable_of_tokenize hcase
  | error fault =>
      rw [ofText, hcase] at h
      cases h

theorem eq_start_of_ofText {text : String} {parser : Parser} (h : ofText text = .ok parser) :
    parser = start text.toList := by
  rw [ofText_of_readable (readable_of_ofText h), Except.ok.injEq] at h
  exact h.symm

end Parser

/-- A readable text is parsed as the parser reads its tokens. -/
theorem parse_of_readable {text : String} (h : Segment.Readable text.toList) :
    parse text = .ok (Parser.start text.toList).readAll.1 := by
  rw [parse, Parser.ofText_of_readable h]

/-- A text that is parsed is readable. -/
theorem readable_of_parse {text : String} {parsed : Parsed} (h : parse text = .ok parsed) :
    Segment.Readable text.toList := by
  cases hcase : Parser.ofText text with
  | ok parser => exact Parser.readable_of_ofText hcase
  | error fault =>
      rw [parse, hcase] at h
      cases h

theorem parse_eq {text : String} (h : Text.DigitRunsWithin Segment.maxDigits text.toList) :
    parse text = .ok (Parser.start text.toList).readAll.1 :=
  parse_of_readable fun _ hmem => Segment.not_isOverlong h hmem

/-- What can be computed from the result of parsing a text belongs to such a result. -/
theorem exists_of_map_parse {α : Type} {text : String} {view : Parsed → α} {value : α}
    (h : (parse text).map view = .ok value) :
    ∃ parsed, parse text = .ok parsed ∧ view parsed = value := by
  cases hcase : parse text with
  | ok parsed =>
      rw [hcase] at h
      exact ⟨parsed, rfl, Except.ok.inj h⟩
  | error fault =>
      rw [hcase] at h
      cases h

end Calculator
