/-
Wrapping at every step against wrapping once.

Evaluation wraps the result of every operation around into the signed 32-bit range.  Without
division it would be enough to compute with numbers of any size and to wrap the final value: sums,
differences and products of numbers that agree modulo `2 ^ 32` agree modulo `2 ^ 32`.  Only the
number of a tree that has no operation at all is not wrapped.

* `Word32.wrap_modEq`, `Word32.wrap_congr` — wrapping and agreement modulo `2 ^ 32`;
* `Node.DivisionFree`, `Node.peeled` — trees without division, and what stands inside the outer
  parentheses of a tree;
* `Node.Agrees`, `Node.WrapsExact` — the value of a tree is its exact value modulo `2 ^ 32`, or its
  exact value, wrapped;
* `Node.Agrees.binary` — **an operation on operands that agree with their exact values yields its
  exact value, wrapped**;
* `Node.DivisionFree.agrees`, `Node.DivisionFree.meaning_of_peeled`,
  `Node.DivisionFree.meaning_of_inRange` — the values of trees without division;
* `WithoutDivision`, `Node.Normal.divisionFree` — a normal tree is free of division if its tokens
  are;
* `Parser.start_divisionFree`, `Parser.start_inRange` — the tree of a text without a slash about
  which nothing is noted, and the numbers in the tree of any text;
* `evaluate_wraps_exact_value` — evaluation against the exact value.
-/

import Calculator.Node.Exact
import Calculator.Proofs.Evaluation.Safety
import Calculator.Proofs.Parser.Trees
import Mathlib.Data.Int.ModEq

set_option relaxedAutoImplicit false
set_option autoImplicit false

namespace Calculator

/-! ### Agreement modulo `2 ^ 32` -/

namespace Word32

theorem wrap_modEq (value : Int) : wrap value ≡ value [ZMOD 2 ^ 32] := by
  rw [Int.ModEq, wrap_eq]
  simp only [minimum, modulus]
  omega

/-- Numbers that agree modulo `2 ^ 32` are wrapped to the same number. -/
theorem wrap_congr {first second : Int} (h : first ≡ second [ZMOD 2 ^ 32]) :
    wrap first = wrap second := by
  have hshifted : (first - minimum) % modulus = (second - minimum) % modulus :=
    h.sub_right minimum
  rw [wrap_eq, wrap_eq, hshifted]

end Word32

/-- Addition, subtraction and multiplication need their operands only modulo `2 ^ 32`. -/
theorem Token.operate_of_modEq {operator : Token}
    (hkind : operator.kind ∈ [Kind.plus, .minus, .multiply])
    {left right exactLeft exactRight : Int} (hleft : left ≡ exactLeft [ZMOD 2 ^ 32])
    (hright : right ≡ exactRight [ZMOD 2 ^ 32]) :
    ∃ exact, operator.exactResult? exactLeft exactRight = some exact ∧
      operator.operate left right = .ok (Word32.wrap exact) := by
  simp only [List.mem_cons, List.not_mem_nil, or_false] at hkind
  rcases hkind with hkind | hkind | hkind <;> rw [exactResult?, operate, hkind]
  · exact ⟨_, rfl, congrArg Except.ok (Word32.wrap_congr (hleft.add hright))⟩
  · exact ⟨_, rfl, congrArg Except.ok (Word32.wrap_congr (hleft.sub hright))⟩
  · exact ⟨_, rfl, congrArg Except.ok (Word32.wrap_congr (hleft.mul hright))⟩

/-! ### Trees without division -/

namespace Node

/-- Trees of sums, differences and products of numbers that have values, whatever these are. -/
inductive DivisionFree : Node → Prop
  | number {token : Token} {value : Int} : token.value = some value → DivisionFree (.number token)
  | binary {left right : Node} {operator : Token} :
      DivisionFree left → operator.kind ∈ [Kind.plus, .minus, .multiply] → DivisionFree right →
      DivisionFree (.binary left operator right)
  | parenthesized {opening closing : Token} {inner : Node} :
      DivisionFree inner → DivisionFree (.parenthesized opening inner closing)

/-- The tree without the parentheses around it. -/
def peeled : Node → Node
  | parenthesized _ inner _ => inner.peeled
  | node => node

/-- The tree has an exact value, and its evaluation agrees with that modulo `2 ^ 32`. -/
def Agrees (node : Node) : Prop :=
  ∃ exact value, node.exactValue? = some exact ∧ node.meaning = .ok value ∧
    value ≡ exact [ZMOD 2 ^ 32]

/-- The value of the tree is its exact value, wrapped. -/
def WrapsExact (node : Node) : Prop :=
  ∃ exact, node.exactValue? = some exact ∧ node.meaning = .ok (Word32.wrap exact)

theorem WrapsExact.agrees {node : Node} (h : node.WrapsExact) : node.Agrees := by
  obtain ⟨exact, hexact, hmeaning⟩ := h
  exact ⟨exact, _, hexact, hmeaning, Word32.wrap_modEq exact⟩

/-- One operation makes up for what its operands leave out of their exact values. -/
theorem Agrees.binary {left right : Node} {operator : Token} (hleft : left.Agrees)
    (hkind : operator.kind ∈ [Kind.plus, .minus, .multiply]) (hright : right.Agrees) :
    (Node.binary left operator right).WrapsExact := by
  obtain ⟨exactLeft, leftValue, hexactLeft, hleftMeaning, hleftModEq⟩ := hleft
  obtain ⟨exactRight, rightValue, hexactRight, hrightMeaning, hrightModEq⟩ := hright
  obtain ⟨exact, hresult, hoperate⟩ := Token.operate_of_modEq hkind hleftModEq hrightModEq
  refine ⟨exact, ?_, ?_⟩
  · rw [exactValue?, hexactLeft, hexactRight]
    exact hresult
  · rw [meaning, hleftMeaning, hrightMeaning]
    exact hoperate

namespace DivisionFree

variable {node : Node}

/-- Without division evaluation agrees with the exact value. -/
theorem agrees (h : node.DivisionFree) : node.Agrees := by
  induction h with
  | @number token value hvalue =>
      refine ⟨value, value, hvalue, ?_, Int.ModEq.refl value⟩
      rw [meaning, Token.number, hvalue]
  | binary _ hkind _ ihLeft ihRight => exact (ihLeft.binary hkind ihRight).agrees
  | parenthesized _ ih => exact ih

/-- An operation, perhaps in parentheses, yields its exact value, wrapped. -/
theorem meaning_of_peeled (h : node.DivisionFree) {left right : Node} {operator : Token}
    (hpeeled : node.peeled = .binary left operator right) : node.WrapsExact := by
  induction h with
  | number _ => cases hpeeled
  | binary hleft hkind hright _ _ => exact hleft.agrees.binary hkind hright.agrees
  | parenthesized _ ih => exact ih hpeeled

/-- So does every tree whose numbers are in the signed 32-bit range. -/
theorem meaning_of_inRange (h : node.DivisionFree)
    (hrange : ∀ token ∈ node.leaves, ∀ value, token.value = some value → Word32.InRange value) :
    node.WrapsExact := by
  induction h with
  | @number token value hvalue =>
      have hwrap := Word32.wrap_of_inRange (hrange token List.mem_cons_self value hvalue)
      refine ⟨value, hvalue, ?_⟩
      rw [meaning, Token.number, hvalue, hwrap]
  | binary hleft hkind hright _ _ => exact hleft.agrees.binary hkind hright.agrees
  | parenthesized _ ih => exact ih fun token hmem => hrange token (leaves_inner_subset hmem)

end DivisionFree

end Node

/-- None of the tokens divides, and the numbers among them have values. -/
def WithoutDivision (tokens : List Token) : Prop :=
  ∀ token ∈ tokens, token.kind ≠ .divide ∧ (token.kind = .number → token.value ≠ none)

theorem WithoutDivision.mono {tokens more : List Token} (h : WithoutDivision more)
    (hsubset : tokens ⊆ more) : WithoutDivision tokens :=
  fun token hmem => h token (hsubset hmem)

/-- A normal tree is free of division if its tokens are. -/
theorem Node.Normal.divisionFree {levels : Nat} {rule : Rule} {node : Node}
    (h : Normal levels rule node) (htokens : WithoutDivision node.leaves) :
    node.DivisionFree := by
  induction h with
  | @number levels token hkind =>
      have hsome := (htokens token List.mem_cons_self).2 hkind
      obtain ⟨value, hvalue⟩ := Option.ne_none_iff_exists'.1 hsome
      exact .number hvalue
  | parenthesized _ _ _ ih => exact .parenthesized (ih (htokens.mono leaves_inner_subset))
  | factor _ ih => exact ih htokens
  | @product levels left right operator _ hop _ ihLeft ihRight =>
      have hleft := ihLeft (htokens.mono leaves_left_subset)
      have hright := ihRight (htokens.mono leaves_right_subset)
      have hdivide := (htokens operator operator_mem_leaves).1
      refine .binary hleft ?_ hright
      cases hkind : operator.kind <;> simp_all [Kind.isMultiplicative]
  | addition _ ih => exact ih htokens
  | @sum levels left right operator _ hop _ ihLeft ihRight =>
      have hleft := ihLeft (htokens.mono leaves_left_subset)
      have hright := ihRight (htokens.mono leaves_right_subset)
      refine .binary hleft ?_ hright
      cases hkind : operator.kind <;> simp_all [Kind.isAdditive]
  | expression _ ih => exact ih htokens

/-! ### Texts without a slash -/

/-- The value of a token of a text is in the signed 32-bit range. -/
theorem Token.Valued.inRange {token : Token} (h : token.Valued) {value : Int}
    (hvalue : token.value = some value) : Word32.InRange value := by
  by_cases hnumber : token.kind = .number ∧ token.text ≠ ""
  · obtain ⟨found, hfound, hlow, hhigh⟩ := h.number hnumber.1 hnumber.2
    rw [hvalue, Option.some.injEq] at hfound
    rw [hfound]
    exact ⟨Int.le_trans (by decide) hlow, hhigh⟩
  · rw [h.other hnumber] at hvalue
    cases hvalue

namespace Parser

/-- All values in the tree of a text are in the signed 32-bit range. -/
theorem start_inRange {text : List Char} {token : Token}
    (h : token ∈ (start text).readAll.1.root.leaves) {value : Int}
    (hvalue : token.value = some value) : Word32.InRange value := by
  rcases start_leaves h with hmem | ⟨kind, position, -, rfl⟩
  · exact (Segment.valued_of_mem_tokens hmem).inRange hvalue
  · cases hvalue

/-- If nothing is noted about a text and no slash stands in it, then its tree is free of
division. -/
theorem start_divisionFree {text : List Char}
    (hclean : (start text).readAll.1.diagnostics = []) (hslash : '/' ∉ text) :
    (start text).readAll.1.root.DivisionFree := by
  obtain ⟨after, notes, hreads, -, -⟩ := readAll_cases (start text)
  refine hreads.normal.divisionFree fun token hmem => ⟨fun hkind => ?_, fun hkind hnone => ?_⟩
  · obtain ⟨offset, -, hoffset⟩ := start_slash hmem hkind
    exact hslash (List.mem_of_getElem? hoffset)
  · refine start_clean hclean token.position ?_
    rw [Node.tokens_eq_leaves, ← start_missing hmem hkind hnone]
    exact hmem

end Parser

/-! ### Main result -/

/-- Every tree of sums, differences and products of numbers with values has an exact value, and it
is evaluated to a number that agrees with that modulo `2 ^ 32`.  If the tree is an operation,
perhaps in parentheses, then its value is the exact value, wrapped once.  So is the value of every
text without a slash about which nothing is noted. -/
theorem evaluate_wraps_exact_value :
    (∀ node : Node, node.DivisionFree →
      ∃ exact value, node.exactValue? = some exact ∧ node.evaluate = .ok value ∧
        value ≡ exact [ZMOD 2 ^ 32] ∧
        ∀ left operator right, node.peeled = .binary left operator right →
          value = Word32.wrap exact ∧ -2 ^ 31 ≤ value ∧ value ≤ 2 ^ 31 - 1) ∧
    ∀ text parsed, parse text = .ok parsed → parsed.diagnostics = [] → '/' ∉ text.toList →
      ∃ exact, parsed.root.exactValue? = some exact ∧
        parsed.evaluate = .ok (Word32.wrap exact) := by
  constructor
  · intro node hnode
    obtain ⟨exact, value, hexact, hmeaning, hmodEq⟩ := hnode.agrees
    refine ⟨exact, value, hexact, node.evaluate_eq_meaning.trans hmeaning, hmodEq, ?_⟩
    intro left operator right hpeeled
    obtain ⟨found, hfound, hwrapped⟩ := hnode.meaning_of_peeled hpeeled
    rw [hexact, Option.some.injEq] at hfound
    rw [hmeaning, ← hfound, Except.ok.injEq] at hwrapped
    obtain ⟨hlow, hhigh⟩ := Word32.inRange_wrap exact
    rw [hwrapped]
    exact ⟨rfl, hlow, hhigh⟩
  · intro text parsed hparse hclean hslash
    rw [parse_of_readable (readable_of_parse hparse), Except.ok.injEq] at hparse
    rw [← hparse] at hclean ⊢
    obtain ⟨exact, hexact, hmeaning⟩ :=
      (Parser.start_divisionFree hclean hslash).meaning_of_inRange
        fun token hmem value hvalue => Parser.start_inRange hmem hvalue
    refine ⟨exact, hexact, ?_⟩
    rw [Parsed.evaluate, Parsed.hasDiagnostics, hclean, Node.evaluate_eq_meaning, hmeaning]
    rfl

/-- The tree is `(8589934593 * 3)` with a number that is outside the range, and the text is
`2147483647 + 1`; the values of both are wrapped. -/
theorem evaluate_wraps_exact_product :
    (∃ node : Node, node.DivisionFree ∧ node.exactValue? = some 25769803779 ∧
      node.evaluate = .ok 3) ∧
    ∃ parsed, parse "2147483647 + 1" = .ok parsed ∧ parsed.diagnostics = [] ∧
      parsed.root.exactValue? = some 2147483648 ∧ parsed.evaluate = .ok (-2147483648) := by
  obtain ⟨htree, htext⟩ := evaluate_wraps_exact_value
  constructor
  · let left : Node := .number ⟨.number, 1, "8589934593", some 8589934593⟩
    let operator : Token := ⟨.multiply, 12, "*", none⟩
    let right : Node := .number ⟨.number, 14, "3", some 3⟩
    let node : Node := .parenthesized ⟨.openParenthesis, 0, "(", none⟩
      (.binary left operator right) ⟨.closeParenthesis, 15, ")", none⟩
    have hfree : node.DivisionFree :=
      .parenthesized (.binary (.number rfl) (by decide) (.number rfl))
    have hvalue : node.exactValue? = some 25769803779 := by decide
    obtain ⟨exact, value, hexact, hevaluate, -, hpeeled⟩ := htree node hfree
    obtain ⟨hwrap, -, -⟩ := hpeeled left operator right rfl
    refine ⟨node, hfree, hvalue, ?_⟩
    rw [hvalue, Option.some.injEq] at hexact
    rw [hevaluate, hwrap, ← hexact]
    decide
  · have hparses : (parse "2147483647 + 1").map
        (fun parsed => (parsed.diagnostics, parsed.root.exactValue?)) =
          .ok ([], some 2147483648) := by
      decide +kernel
    obtain ⟨parsed, hparse, hview⟩ := exists_of_map_parse hparses
    obtain ⟨hclean, hvalue⟩ := Prod.mk.inj hview
    obtain ⟨exact, hexact, hevaluate⟩ := htext _ parsed hparse hclean (by decide)
    refine ⟨parsed, hparse, hclean, hvalue, ?_⟩
    rw [hvalue, Option.some.injEq] at hexact
    rw [hevaluate, ← hexact]
    decide

end Calculator
