/-
The states of a parser, and the tokens that its rules consume.

A parser is used step by step: tokens are looked at or consumed, and rules are called, in any order
and from any place, also behind the end of the stream.  Whatever was done before, the stream is
still that of the text, and a rule takes the next tokens of the stream into its tree: it leaves none
out, adds none but placeholders, and keeps their order.

* `Parser.Advances`, `Parser.advances_perform` — **what a step does to the state of a parser**;
* `Parser.Reaches` — the states of a parser of a text;
* `Parser.Reaches.stream_eq` — the stream stays what it is;
* `Parser.Reaches.isWritten`, `Parser.Reaches.position_lt`, `Parser.Reaches.kind_ne_endOfFile` —
  what the tokens of the stream are like;
* `Parser.apply_conserves_tokens` — the tokens in the tree of a rule are those that it consumes.
-/

import Calculator.Parser.Session
import Calculator.Proofs.Lexer.Tokens
import Calculator.Proofs.Parser.Trace

set_option relaxedAutoImplicit false
set_option autoImplicit false

namespace Calculator.Parser

/-! ### Steps -/

theorem readAll_eq (parser : Parser) :
    parser.readAll =
      ({ root := (parser.apply .expression).1
         endOfFile := ((parser.apply .expression).2.expect .endOfFile).1
         diagnostics := ((parser.apply .expression).2.expect .endOfFile).2.diagnostics.toList },
        ((parser.apply .expression).2.expect .endOfFile).2) := by
  rw [readAll]

theorem diagnostics_readAll (parser : Parser) :
    parser.readAll.1.diagnostics = parser.readAll.2.diagnostics.toList := by
  rw [readAll_eq]

/-- `Advances parser after` says that `after` may be a later state than `parser`: the tokens are the
same, none is given back, as many parentheses are open, and what was noted stays. -/
structure Advances (parser after : Parser) : Prop where
  stream_eq : after.stream = parser.stream
  depth_eq : after.depth = parser.depth
  position_le : parser.position ≤ after.position
  notes : parser.diagnostics.toList <+: after.diagnostics.toList

namespace Advances

theorem refl (parser : Parser) : Advances parser parser :=
  ⟨rfl, rfl, Nat.le_refl _, List.prefix_refl _⟩

theorem trans {parser between after : Parser} (h : Advances parser between)
    (hmore : Advances between after) : Advances parser after :=
  ⟨hmore.stream_eq.trans h.stream_eq, hmore.depth_eq.trans h.depth_eq,
    Nat.le_trans h.position_le hmore.position_le, h.notes.trans hmore.notes⟩

end Advances

theorem advances_advance (parser : Parser) (count : Nat) : Advances parser (parser.advance count) :=
  ⟨rfl, rfl, Nat.le_add_right _ _, List.prefix_refl _⟩

theorem advances_report (parser : Parser) (diagnostic : Diagnostic) :
    Advances parser (parser.report diagnostic) :=
  ⟨rfl, rfl, Nat.le_refl _, _, (DiagnosticLog.toList_report _ _).symm⟩

theorem advances_expect (parser : Parser) (kind : Kind) :
    Advances parser (parser.expect kind).2 := by
  by_cases h : parser.current.kind = kind
  · rw [expect_of_kind h]
    exact advances_advance parser 1
  · rw [expect_of_kind_ne h]
    exact advances_report parser _

theorem Reads.advances {levels : Nat} {rule : Rule} {parser after : Parser} {node : Node}
    (h : Reads levels rule parser node after) : Advances parser after := by
  obtain ⟨-, notes, -, hnotes⟩ := h.traced
  exact ⟨h.stream_eq, h.depth_eq, h.position_le, notes, hnotes.symm⟩

theorem advances_readAll (parser : Parser) : Advances parser parser.readAll.2 := by
  rw [readAll_eq]
  dsimp only
  exact (reads_apply parser .expression).advances.trans (advances_expect _ _)

/-- Whatever is asked of a parser, it goes on. -/
theorem advances_perform (parser : Parser) (step : Step) :
    Advances parser (parser.perform step).2 := by
  cases step with
  | peek offset => exact .refl parser
  | current => exact .refl parser
  | next => exact advances_advance parser 1
  | expect kind => exact advances_expect parser kind
  | rule rule =>
      dsimp only [perform]
      exact (reads_apply parser rule).advances
  | readAll =>
      dsimp only [perform]
      exact advances_readAll parser

/-! ### States -/

/-- `Reaches text parser` says that a parser of the text comes to this state: at the beginning,
after any step, and in the middle of a rule, where the rules inside parentheses are called with one
parenthesis more open. -/
inductive Reaches (text : String) : Parser → Prop
  | start {parser : Parser} : ofText text = .ok parser → Reaches text parser
  | step {parser : Parser} (step : Step) :
      Reaches text parser → Reaches text (parser.perform step).2
  | enter {parser : Parser} :
      Reaches text parser → parser.current.kind = .openParenthesis → parser.depth < maxDepth →
      Reaches text parser.enter
  | leave {parser : Parser} :
      Reaches text parser → 0 < parser.depth → Reaches text parser.leave

namespace Reaches

variable {text : String} {parser : Parser}

/-- A parser of a text exists only if the text is readable. -/
theorem readable (h : Reaches text parser) : Segment.Readable text.toList := by
  induction h with
  | start hparser => exact readable_of_ofText hparser
  | step _ _ ih => exact ih
  | enter _ _ _ ih => exact ih
  | leave _ _ ih => exact ih

/-- The stream is that of the text in every state. -/
theorem stream_eq (h : Reaches text parser) :
    parser.stream = (Parser.start text.toList).stream := by
  induction h with
  | start hparser => rw [eq_start_of_ofText hparser]
  | step step _ ih => exact (advances_perform _ step).stream_eq.trans ih
  | enter _ _ _ ih => exact ih
  | leave _ _ ih => exact ih

theorem mem_tokens (h : Reaches text parser) {token : Token} (hmem : token ∈ parser.stream.tokens) :
    token ∈ Segment.tokens (Segment.cut text.toList) 0 :=
  mem_tokens_of_mem_start (h.stream_eq ▸ hmem)

theorem isWritten (h : Reaches text parser) {token : Token}
    (hmem : token ∈ parser.stream.tokens) : token.isWritten = true :=
  isWritten_of_mem_start (h.stream_eq ▸ hmem)

/-- Every token but the end mark begins before the end of the text. -/
theorem position_lt (h : Reaches text parser) {token : Token}
    (hmem : token ∈ parser.stream.tokens) : token.position < parser.stream.endPosition := by
  rw [h.stream_eq]
  exact (Segment.isWritten_of_mem_tokens (h.mem_tokens hmem)).2

theorem kind_ne_endOfFile (h : Reaches text parser) {token : Token}
    (hmem : token ∈ parser.stream.tokens) : token.kind ≠ .endOfFile :=
  Segment.kind_ne_endOfFile_of_mem_tokens (h.mem_tokens hmem)

end Reaches

/-! ### Main result -/

/-- No rule loses, repeats or moves a token, whatever state it is called in.  It never goes back and
never consumes the end mark; the tokens of its tree that have characters are those of the stream
from where it begins to where it ends; and every other token of its tree is a placeholder for a
number or a closing parenthesis, so operators and opening parentheses are never made up. -/
theorem apply_conserves_tokens (text : String) (parser : Parser) (h : Reaches text parser)
    (rule : Rule) :
    parser.position ≤ (parser.apply rule).2.position ∧
      (parser.apply rule).2.position ≤ max parser.position (parser.stream.size - 1) ∧
      (parser.apply rule).1.tokens.filter Token.isWritten =
        parser.stream.toList.extract parser.position (parser.apply rule).2.position ∧
      (∀ token ∈ (parser.apply rule).1.tokens, token.isWritten = false →
        (token.kind = .number ∨ token.kind = .closeParenthesis) ∧ token.text = "" ∧
          token.value = none) ∧
      ∀ token ∈ (parser.apply rule).1.tokens,
        token.kind.isAdditive = true ∨ token.kind.isMultiplicative = true ∨
          token.kind = .openParenthesis → token ∈ parser.stream.tokens := by
  obtain ⟨-, notes, htrace, -⟩ := (reads_apply parser rule).traced
  rw [Node.tokens_eq_leaves]
  obtain ⟨hle, hmax⟩ := htrace.span
  refine ⟨hle, hmax, htrace.filter_isWritten fun token hmem => h.isWritten hmem, ?_, ?_⟩
  · intro token hmem hmissing
    obtain ⟨kind, position, hkind, rfl⟩ :=
      htrace.eq_placeholder (fun token hmem => h.isWritten hmem) hmem hmissing
    exact ⟨hkind, rfl, rfl⟩
  · intro token hmem hoperator
    rcases htrace.mem_or_placeholder hmem with hstream | ⟨kind, position, hkind, rfl⟩
    · exact hstream
    · -- the kinds of placeholders are other ones
      rcases hkind with rfl | rfl <;> simp [Token.placeholder, Kind.isAdditive,
        Kind.isMultiplicative] at hoperator

/-- Behind the first token of `7(3 4` the rule of expressions consumes two tokens, and a placeholder
follows them in its tree. -/
theorem apply_conserves_tokens_unclosed :
    ∃ parser, Reaches "7(3 4" parser ∧ parser.position = 1 ∧
      (parser.apply .expression).1.tokens =
        [⟨.openParenthesis, 1, "(", none⟩, ⟨.number, 2, "3", some 3⟩,
          Token.placeholder .closeParenthesis 4] ∧
      (parser.apply .expression).1.tokens.filter Token.isWritten =
        parser.stream.toList.extract 1 3 := by
  have hstart : ofText "7(3 4" = .ok (start "7(3 4".toList) := by decide +kernel
  have hreaches := Reaches.step .next (.start hstart)
  obtain ⟨-, -, hwritten, -, -⟩ := apply_conserves_tokens _ _ hreaches .expression
  refine ⟨_, hreaches, by decide +kernel, by decide +kernel, hwritten.trans ?_⟩
  decide +kernel

end Calculator.Parser
