/-
The trees that a parser makes, whatever its text is like.

Evaluation and printing are also used on the trees of broken texts.  They can rely on this: a tree
groups its tokens as the grammar does, no more parentheses are nested in it than the parser allows,
and its numbers have the values that the arithmetic expects.  Recovery changes nothing about that,
since a placeholder has the kind of the token that it stands for.

* `Token.Valued` — which tokens have a value, and which values these are;
* `Segment.valued_of_mem_tokens`, `Parser.Reaches.valued_get` — the tokens of a text are such;
* `Node.WellFormed` — trees of a rule with such tokens;
* `Parser.Reaches.wellFormed` — **every tree that is read is well formed**;
* `Parser.trees_wellFormed` — the trees of the rules, of a whole stream and of a text.
-/

import Calculator.Proofs.Parser.Session
import Calculator.Proofs.Parser.Shape
import Mathlib.Algebra.Group.Int.Defs

set_option relaxedAutoImplicit false
set_option autoImplicit false

namespace Calculator

/-! ### Tokens with a value -/

/-- A token has a value exactly if it is a number that stands in the text, and this value is one of
the signed 32-bit range that is not negative. -/
structure Token.Valued (token : Token) : Prop where
  number : token.kind = .number → token.text ≠ "" →
    ∃ value, token.value = some value ∧ 0 ≤ value ∧ value ≤ 2 ^ 31 - 1
  other : ¬(token.kind = .number ∧ token.text ≠ "") → token.value = none

theorem Token.valued_endAt (position : Nat) : (Token.endAt position).Valued := by
  refine ⟨fun hkind => ?_, fun _ => rfl⟩
  cases hkind

theorem Token.valued_placeholder (kind : Kind) (position : Int) :
    (Token.placeholder kind position).Valued :=
  ⟨fun _ htext => absurd rfl htext, fun _ => rfl⟩

/-- A token of a text has the value that its segment denotes. -/
theorem Segment.valued_of_mem_tokens {text : List Char} {start : Nat} {token : Token}
    (h : token ∈ tokens (cut text) start) : token.Valued := by
  obtain ⟨segment, hmem, offset, rfl, -⟩ := exists_of_mem_tokens h
  have htext : (segment.token (start + offset)).text ≠ "" := by
    simpa [Segment.token] using (kind_of_mem_cut hmem).1
  exact ⟨fun hkind _ => exists_value hkind, fun hother => if_neg fun hkind => hother ⟨hkind, htext⟩⟩

/-! ### Well-formed trees -/

/-- A tree of a rule, with parentheses nested in at most `levels` levels, in which exactly the
numbers that stand in the text have a value. -/
structure Node.WellFormed (levels : Nat) (rule : Rule) (node : Node) : Prop where
  normal : Node.Normal levels rule node
  valued : ∀ token ∈ node.tokens, token.Valued

namespace Parser

namespace Reaches

variable {text : String} {parser : Parser}

/-- Whatever a parser looks at has its value. -/
theorem valued_get (h : Reaches text parser) (index : Nat) : (parser.stream.get index).Valued := by
  rcases parser.stream.get_cases index with hmem | hend
  · exact Segment.valued_of_mem_tokens (h.mem_tokens hmem)
  · rw [hend]
    exact Token.valued_endAt _

/-- What a rule reads in a state of a parser is well formed, with as many levels of parentheses as
the rule may read. -/
theorem wellFormed (h : Reaches text parser) {levels : Nat} {rule : Rule} {node : Node}
    {after : Parser} (hreads : Reads levels rule parser node after) :
    node.WellFormed levels rule := by
  refine ⟨hreads.normal, fun token hmem => ?_⟩
  obtain ⟨-, notes, htrace, -⟩ := hreads.traced
  rw [Node.tokens_eq_leaves] at hmem
  rcases htrace.mem_or_placeholder hmem with hstream | ⟨kind, position, -, rfl⟩
  · exact Segment.valued_of_mem_tokens (h.mem_tokens hstream)
  · exact Token.valued_placeholder kind position

/-- So is the expression of a whole stream. -/
theorem wellFormed_readAll (h : Reaches text parser) :
    parser.readAll.1.root.WellFormed (maxDepth - parser.depth) .expression := by
  obtain ⟨after, notes, hreads, -, -⟩ := readAll_cases parser
  exact h.wellFormed hreads

/-- What stands behind the expression is the end mark or a placeholder for it. -/
theorem endOfFile_readAll (h : Reaches text parser) :
    parser.readAll.1.endOfFile.kind = .endOfFile ∧ parser.readAll.1.endOfFile.Valued := by
  obtain ⟨after, notes, hreads, -, ⟨hkind, hfound, -⟩ | ⟨-, hmissing, -⟩⟩ := readAll_cases parser
  · rw [hfound]
    refine ⟨hkind, ?_⟩
    rw [current, hreads.stream_eq]
    exact h.valued_get _
  · rw [hmissing]
    exact ⟨rfl, Token.valued_placeholder _ _⟩

end Reaches

/-! ### Main result -/

/-- Every tree of a parser is well formed, in whatever state it is made and however broken the text
is.  Together with the parentheses open around it, no tree has more than 100 levels of them; the
tree of a text is one of a whole expression, and what stands behind it has the kind of the end
mark. -/
theorem trees_wellFormed (text : String) (parser : Parser) (h : Reaches text parser) :
    (∀ rule, (parser.apply rule).1.WellFormed (100 - parser.depth) rule) ∧
      parser.readAll.1.root.WellFormed (100 - parser.depth) .expression ∧
      parser.readAll.1.endOfFile.kind = .endOfFile ∧ parser.readAll.1.endOfFile.Valued ∧
      ∃ parsed, parse text = .ok parsed ∧ parsed.root.WellFormed 100 .expression ∧
        parsed.endOfFile.kind = .endOfFile ∧ parsed.endOfFile.Valued := by
  have hrules : ∀ rule, (parser.apply rule).1.WellFormed (100 - parser.depth) rule :=
    fun rule => h.wellFormed (reads_apply parser rule)
  have hfresh := Reaches.start (ofText_of_readable h.readable)
  obtain ⟨hend, hvalued⟩ := h.endOfFile_readAll
  exact ⟨hrules, h.wellFormed_readAll, hend, hvalued, _, parse_of_readable h.readable,
    hfresh.wellFormed_readAll, hfresh.endOfFile_readAll⟩

/-- Behind the first token of `5(7**8` a number and a closing parenthesis are missing, and yet the
tree of the rest is well formed. -/
theorem trees_wellFormed_broken :
    ∃ parser, Reaches "5(7**8" parser ∧
      (parser.apply .primary).1 =
        .parenthesized ⟨.openParenthesis, 1, "(", none⟩
          (.binary
            (.binary (.number ⟨.number, 2, "7", some 7⟩) ⟨.multiply, 3, "*", none⟩
              (.number (Token.placeholder .number 4)))
            ⟨.multiply, 4, "*", none⟩ (.number ⟨.number, 5, "8", some 8⟩))
          (Token.placeholder .closeParenthesis 6) ∧
      (parser.apply .primary).1.WellFormed 100 .primary := by
  have hstart : ofText "5(7**8" = .ok (start "5(7**8".toList) := by decide +kernel
  have hreaches := Reaches.step .next (.start hstart)
  obtain ⟨hrules, -⟩ := trees_wellFormed _ _ hreaches
  exact ⟨_, hreaches, by decide +kernel, hrules .primary⟩

end Parser

end Calculator
