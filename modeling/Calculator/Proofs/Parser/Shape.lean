/-
The shape of the trees that are read, and the reading of the trees that have this shape.

What a rule reads is a normal tree of the rule, whatever the tokens are.  Conversely every normal
tree is read off its own tokens, if no operator follows that would continue it.  As there is only
one reading of an expression, a normal tree is determined by its tokens.

* `Parser.Reads.normal` — **every tree that is read is normal**;
* `Parser.reads_of_normal` — **every normal tree is read off its tokens**;
* `Node.Normal.eq_of_leaves_eq` — two normal trees with the same tokens are the same;
* `Parser.readAll_of_normal` — the expression of a whole token stream;
* `parse_recovers_normal_tree` — parsing inverts the listing of tokens.
-/

import Calculator.Node.Normal
import Calculator.Proofs.Lexer.Tokens
import Calculator.Proofs.Parser.Reading

set_option relaxedAutoImplicit false
set_option autoImplicit false

namespace Calculator

open Node (Normal)

namespace Parser

/-! ### Trees that are read are normal -/

theorem kind_expect (parser : Parser) (kind : Kind) : (parser.expect kind).1.kind = kind := by
  by_cases h : parser.current.kind = kind
  · rw [expect_of_kind h, h]
  · rw [expect_of_kind_ne h, Token.placeholder]

/-- Every tree that is read has the shape of its rule, with placeholders in the place of missing
tokens. -/
theorem Reads.normal {levels : Nat} {rule : Rule} {parser after : Parser} {node : Node}
    (h : Reads levels rule parser node after) : Normal levels rule node := by
  induction h with
  | number _ => exact .number (kind_expect _ _)
  | tooDeep _ => exact .number rfl
  | parenthesized hkind _ ih => exact .parenthesized hkind ih (kind_expect _ _)
  | factor _ ih => exact .factor ih
  | product _ hop _ ihLeft ihRight => exact .product ihLeft hop ihRight
  | addition _ _ ih => exact .addition ih
  | sum _ hop _ _ ihLeft ihRight => exact .sum ihLeft hop ihRight
  | expression _ _ ih => exact .expression ih

/-! ### Normal trees are read -/

theorem not_isMultiplicative_of_isAdditive {kind : Kind} (h : kind.isAdditive = true) :
    kind.isMultiplicative = false := by
  cases kind <;> first | rfl | cases h

/-- `Consumes parser tokens after` says that the tokens are the next ones and that consuming them,
whatever they are, leads to `after`. -/
def Consumes (parser : Parser) (tokens : List Token) (after : Parser) : Prop :=
  after = parser.advance tokens.length ∧ ∃ rest, parser.upcoming = tokens ++ rest

theorem Consumes.nil {parser after : Parser} (h : Consumes parser [] after) : after = parser :=
  h.1

/-- The first of several tokens is the current one. -/
theorem Consumes.cons {parser after : Parser} {token : Token} {tokens : List Token}
    (h : Consumes parser (token :: tokens) after) :
    parser.current = token ∧ Consumes (parser.advance 1) tokens after := by
  obtain ⟨rfl, rest, hupcoming⟩ := h
  refine ⟨current_of_upcoming hupcoming, ?_, rest, ?_⟩
  · rw [List.length_cons, advance_advance, Nat.add_comm]
  · have hone : parser.upcoming = [token] ++ (tokens ++ rest) := hupcoming
    exact upcoming_advance hone

theorem Consumes.append {parser after : Parser} {tokens more : List Token}
    (h : Consumes parser (tokens ++ more) after) :
    ∃ between, Consumes parser tokens between ∧ Consumes between more after := by
  obtain ⟨rfl, rest, hupcoming⟩ := h
  rw [List.append_assoc] at hupcoming
  refine ⟨parser.advance tokens.length, ⟨rfl, _, hupcoming⟩, ?_, rest, upcoming_advance hupcoming⟩
  rw [List.length_append, advance_advance]

/-- Inside parentheses the same tokens are consumed. -/
theorem Consumes.enter {parser between : Parser} {tokens : List Token}
    (h : Consumes (parser.advance 1) tokens between) :
    ∃ inside, Consumes parser.enter tokens inside ∧ inside.leave = between := by
  obtain ⟨rfl, rest, hupcoming⟩ := h
  exact ⟨parser.enter.advance tokens.length, ⟨rfl, rest, hupcoming⟩, rfl⟩

/-- If the leaves of a normal tree are the next tokens, and what follows them does not continue the
tree, then the rule reads it and stops behind its leaves. -/
theorem reads_of_normal {levels : Nat} {rule : Rule} {node : Node} (h : Normal levels rule node) :
    ∀ {parser after : Parser}, Consumes parser node.leaves after →
      StopsAt rule after.current.kind → Reads levels rule parser node after := by
  -- the parts of a tree are read from different places, so the parser is general
  induction h with
  | @number levels token hkind =>
      intro parser after hconsumes _
      obtain ⟨hcurrent, hrest⟩ := hconsumes.cons
      have hfound : parser.current.kind = .number := by rw [hcurrent, hkind]
      have hreads : Reads levels .primary parser _ _ := .number (by rw [hfound]; decide)
      rwa [expect_of_kind hfound, hcurrent, ← hrest.nil] at hreads
  | @parenthesized levels opening closing inner hopening _ hclosing ih =>
      intro parser after hconsumes _
      obtain ⟨hcurrent, hrest⟩ := hconsumes.cons
      obtain ⟨between, hinner, hlast⟩ := hrest.append
      obtain ⟨hfound, hafter⟩ := hlast.cons
      obtain ⟨inside, hinside, rfl⟩ := hinner.enter
      have hkind : inside.leave.current.kind = .closeParenthesis := by rw [hfound, hclosing]
      have hstop : StopsAt .expression inside.current.kind := by
        rw [show inside.current.kind = .closeParenthesis from hkind]
        exact ⟨rfl, rfl⟩
      have hreads := Reads.parenthesized (by rw [hcurrent, hopening]) (ih hinside hstop)
      rwa [expect_of_kind hkind, hcurrent, hfound, ← hafter.nil] at hreads
  | factor _ ih =>
      intro parser after hconsumes _
      exact .factor (ih hconsumes trivial)
  | @product levels left right operator _ hop _ ihLeft ihRight =>
      intro parser after hconsumes _
      obtain ⟨between, hleft, hrest⟩ := hconsumes.append
      obtain ⟨rfl, hright⟩ := hrest.cons
      exact .product (ihLeft hleft trivial) hop (ihRight hright trivial)
  | addition _ ih =>
      intro parser after hconsumes hstop
      exact .addition (ih hconsumes trivial) hstop
  | @sum levels left right operator _ hop _ ihLeft ihRight =>
      intro parser after hconsumes hstop
      obtain ⟨between, hleft, hrest⟩ := hconsumes.append
      obtain ⟨rfl, hright⟩ := hrest.cons
      -- an operator of sums does not continue the factor on its left
      have hbetween : between.current.kind.isMultiplicative = false :=
        not_isMultiplicative_of_isAdditive hop
      exact .sum (ihLeft hleft hbetween) hop (ihRight hright trivial) hstop
  | expression _ ih =>
      intro parser after hconsumes hstop
      exact .expression (ih hconsumes hstop.1) hstop.2

/-- The rule of expressions computes a normal tree from its tokens. -/
theorem expression_of_normal {levels : Nat} {node : Node} (h : Normal levels .expression node)
    {parser : Parser} (hupcoming : parser.upcoming = node.leaves) :
    expression levels parser = (node, parser.advance node.leaves.length) ∧
      (parser.advance node.leaves.length).current = parser.stream.endToken := by
  have hnil : (parser.advance node.leaves.length).upcoming = [] :=
    upcoming_advance (by rw [hupcoming, List.append_nil])
  have hcurrent : (parser.advance node.leaves.length).current = parser.stream.endToken :=
    current_of_upcoming_nil hnil
  have hconsumes : Consumes parser node.leaves (parser.advance node.leaves.length) :=
    ⟨rfl, [], by rw [hupcoming, List.append_nil]⟩
  have hstop : StopsAt .expression (parser.advance node.leaves.length).current.kind := by
    rw [hcurrent]
    exact ⟨rfl, rfl⟩
  exact ⟨(reads_of_normal h hconsumes hstop).expression_eq, hcurrent⟩

/-- The tokens of a normal tree alone are parsed as that tree, with nothing to note. -/
theorem readAll_of_normal {parser : Parser} {node : Node}
    (h : Normal (maxDepth - parser.depth) .expression node)
    (hupcoming : parser.upcoming = node.leaves) :
    parser.readAll.1 =
      { root := node, endOfFile := parser.stream.endToken
        diagnostics := parser.diagnostics.toList } := by
  obtain ⟨hexpression, hcurrent⟩ := expression_of_normal h hupcoming
  have hfound : (parser.advance node.leaves.length).current.kind = .endOfFile := by
    rw [hcurrent]
    rfl
  rw [readAll, apply, hexpression]
  dsimp only
  rw [expect_of_kind hfound, hcurrent]
  rfl

theorem readAll_start_of_normal {text : List Char} {node : Node}
    (h : Normal maxDepth .expression node)
    (hleaves : (start text).stream.tokens.toList = node.leaves) :
    (start text).readAll.1 =
      { root := node, endOfFile := (Segment.stream text).endToken
        diagnostics := (Segment.faults text).toList } :=
  readAll_of_normal h hleaves

end Parser

/-! ### Normal trees and their tokens -/

/-- Two normal trees with the same tokens are the same: both are the only expression that is read
off these tokens. -/
theorem Node.Normal.eq_of_leaves_eq {levels more : Nat} {first second : Node}
    (hfirst : Normal levels .expression first) (hsecond : Normal more .expression second)
    (h : first.leaves = second.leaves) : first = second := by
  let parser : Parser := { stream := { tokens := first.leaves.toArray, endPosition := 0 } }
  have hupcoming : parser.upcoming = first.leaves := rfl
  have hone := (Parser.expression_of_normal (hfirst.mono (Nat.le_max_left levels more)) hupcoming).1
  have htwo := (Parser.expression_of_normal (hsecond.mono (Nat.le_max_right levels more))
    (hupcoming.trans h)).1
  rw [hone] at htwo
  exact congrArg Prod.fst htwo

/-- Parsing inverts the listing of tokens.  Whenever the tokens of a text, without whitespace and
invalid tokens, are those of a normal tree with at most 100 levels of parentheses and the end mark,
the text is parsed as this tree and nothing is noted about it but what the lexer noted.  Hence a
normal tree is determined by its tokens. -/
theorem parse_recovers_normal_tree (text : String)
    (hruns : Text.DigitRunsWithin 4300 text.toList) :
    (∃ stream log, tokenize text = .ok (stream, log) ∧
      ∀ tree, Normal 100 .expression tree →
        stream.withoutTrivia.toList = tree.tokens ++ [stream.endToken] →
        parse text = .ok { root := tree, endOfFile := stream.endToken,
                           diagnostics := log.toList }) ∧
      ∀ levels more first second, Normal levels .expression first →
        Normal more .expression second → first.tokens = second.tokens → first = second := by
  refine ⟨⟨_, _, tokenize_eq hruns, fun tree htree htokens => ?_⟩, ?_⟩
  · have hleaves : (Parser.start text.toList).stream.tokens.toList = tree.leaves := by
      rw [← tree.tokens_eq_leaves]
      exact List.append_cancel_right htokens
    have hread := Parser.readAll_start_of_normal htree hleaves
    rw [parse_eq hruns, hread]
  · intro levels more first second hfirst hsecond htokens
    rw [first.tokens_eq_leaves, second.tokens_eq_leaves] at htokens
    exact hfirst.eq_of_leaves_eq hsecond htokens

/-- `1 -2#*3` is parsed as a difference with a product on its right, and only the invalid character
is noted. -/
theorem parse_recovers_difference :
    Text.DigitRunsWithin 4300 "1 -2#*3".toList ∧
      parse "1 -2#*3" = .ok
        { root := .binary (.number ⟨.number, 0, "1", some 1⟩) ⟨.minus, 2, "-", none⟩
            (.binary (.number ⟨.number, 3, "2", some 2⟩) ⟨.multiply, 5, "*", none⟩
              (.number ⟨.number, 6, "3", some 3⟩))
          endOfFile := Token.endAt 7, diagnostics := [.invalidCharacter "#"] } := by
  have hruns : Text.DigitRunsWithin 4300 "1 -2#*3".toList :=
    Text.digitRunsWithin_of_length_le (by decide)
  obtain ⟨⟨stream, log, htokenize, hparse⟩, -⟩ := parse_recovers_normal_tree "1 -2#*3" hruns
  have hstream : tokenize "1 -2#*3" = .ok
      (⟨#[⟨.number, 0, "1", some 1⟩, ⟨.whitespace, 1, " ", none⟩, ⟨.minus, 2, "-", none⟩,
          ⟨.number, 3, "2", some 2⟩, ⟨.invalid, 4, "#", none⟩, ⟨.multiply, 5, "*", none⟩,
          ⟨.number, 6, "3", some 3⟩], 7⟩, ⟨#[.invalidCharacter "#"]⟩) := by
    decide +kernel
  rw [hstream] at htokenize
  cases htokenize
  refine ⟨hruns, hparse _ ?_ (by decide +kernel)⟩
  exact .expression (.sum (.addition (.factor (.number rfl))) rfl
    (.product (.factor (.number rfl)) rfl (.number rfl)))

end Calculator
