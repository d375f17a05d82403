/-
Readings: what the rules of the parser do, as a relation.

The rules are functions with loops inside them, and the loops carry a bound on the operators still
to come.  This module describes the same rules by an inductive relation that has one case for each
way to read a rule, recovery included, and neither loops nor bounds.  What is to be shown of all
runs of a rule can then be shown by induction on a reading.

A factor or an addition may be read in part: the reading then ends before an operator at which the
loop would go on.  Wherever such a reading is used it is required to be complete.

* `Parser.expect_of_kind`, `Parser.expect_of_kind_ne` — the two outcomes of `Parser.expect`;
* `Parser.leftAssociative_induction` — the invariant rule of the loops;
* `Parser.Reads` — the relation;
* `Parser.Reads.stream_eq`, `Parser.Reads.depth_eq`, `Parser.Reads.position_le` — what a reading
  leaves alone;
* `Parser.reads_primary`, `Parser.reads_factor`, `Parser.reads_addition`,
  `Parser.reads_expression`, `Parser.reads_apply` — **the rules read**, and
  `Parser.Reads.stopsAt`, where they stop;
* `Parser.Reads.expression_eq` — **there is only one reading**: it is what the rule computes.
-/

import Calculator.Parser

set_option relaxedAutoImplicit false
set_option autoImplicit false

namespace Calculator.Parser

/-! ### Looking at tokens -/

/-- The tokens before the end mark that have not been consumed. -/
def upcoming (parser : Parser) : List Token :=
  parser.stream.tokens.toList.drop parser.position

/-- The parser with so many more tokens consumed. -/
def advance (parser : Parser) (count : Nat) : Parser :=
  { parser with position := parser.position + count }

theorem current_eq (parser : Parser) :
    parser.current = parser.upcoming.headD parser.stream.endToken := by
  simp [current, TokenStream.get, upcoming, List.headD_eq_head?_getD]

theorem current_of_upcoming {parser : Parser} {token : Token} {rest : List Token}
    (h : parser.upcoming = token :: rest) : parser.current = token := by
  rw [current_eq, h, List.headD_cons]

theorem current_of_upcoming_nil {parser : Parser} (h : parser.upcoming = []) :
    parser.current = parser.stream.endToken := by
  rw [current_eq, h, List.headD_nil]

/-- A current token that is no end mark is the first of those to come. -/
theorem upcoming_of_current {parser : Parser} (h : parser.current.kind ≠ .endOfFile) :
    parser.upcoming = parser.current :: (parser.advance 1).upcoming := by
  cases hup : parser.upcoming with
  | nil =>
      rw [current_of_upcoming_nil hup] at h
      exact absurd rfl h
  | cons token rest =>
      have hrest : (parser.advance 1).upcoming = rest := by
        rw [upcoming, advance, ← List.drop_drop, ← upcoming, hup, List.drop_one, List.tail_cons]
      rw [current_of_upcoming hup, hrest]

theorem upcoming_advance {parser : Parser} {consumed rest : List Token}
    (h : parser.upcoming = consumed ++ rest) :
    (parser.advance consumed.length).upcoming = rest := by
  rw [upcoming, advance, ← List.drop_drop, ← upcoming, h, List.drop_left]

/-- Behind a reading that ends at the end mark there is no token left. -/
theorem upcoming_eq_nil {parser : Parser}
    (hend : ∀ token ∈ parser.upcoming, token.kind ≠ .endOfFile)
    (h : parser.current.kind = .endOfFile) : parser.upcoming = [] := by
  cases hupcoming : parser.upcoming with
  | nil => rfl
  | cons token rest =>
      rw [current_of_upcoming hupcoming] at h
      rw [hupcoming] at hend
      exact absurd h (hend token List.mem_cons_self)

theorem remaining_eq (parser : Parser) : parser.remaining = parser.upcoming.length := by
  simp [remaining, upcoming]

/-- As long as the current token is no end mark, some token remains. -/
theorem remaining_pos {parser : Parser} (h : parser.current.kind ≠ .endOfFile) :
    0 < parser.remaining := by
  rw [remaining_eq, upcoming_of_current h, List.length_cons]
  exact Nat.succ_pos _

theorem remaining_advance (parser : Parser) (count : Nat) :
    (parser.advance count).remaining = parser.remaining - count := by
  simp only [remaining, advance]
  omega

@[simp] theorem advance_advance (parser : Parser) (first second : Nat) :
    (parser.advance first).advance second = parser.advance (first + second) := by
  simp [advance, Nat.add_assoc]

/-! ### Consuming tokens -/

theorem next_eq (parser : Parser) : parser.next = (parser.current, parser.advance 1) := rfl

/-- The required token is consumed if it is there. -/
theorem expect_of_kind {parser : Parser} {kind : Kind} (h : parser.current.kind = kind) :
    parser.expect kind = (parser.current, parser.advance 1) := by
  rw [expect, if_pos h, next_eq]

/-- A placeholder with a diagnostic stands in for the required token if it is missing. -/
theorem expect_of_kind_ne {parser : Parser} {kind : Kind} (h : parser.current.kind ≠ kind) :
    parser.expect kind =
      (Token.placeholder kind parser.current.position,
        parser.report (.unexpectedToken kind parser.current.kind)) := by
  rw [expect, if_neg h]

@[simp] theorem stream_expect (parser : Parser) (kind : Kind) :
    (parser.expect kind).2.stream = parser.stream := by
  by_cases h : parser.current.kind = kind
  · rw [expect_of_kind h, advance]
  · rw [expect_of_kind_ne h, report]

@[simp] theorem depth_expect (parser : Parser) (kind : Kind) :
    (parser.expect kind).2.depth = parser.depth := by
  by_cases h : parser.current.kind = kind
  · rw [expect_of_kind h, advance]
  · rw [expect_of_kind_ne h, report]

theorem position_le_expect (parser : Parser) (kind : Kind) :
    parser.position ≤ (parser.expect kind).2.position := by
  by_cases h : parser.current.kind = kind
  · rw [expect_of_kind h, advance]
    exact Nat.le_add_right _ _
  · rw [expect_of_kind_ne h]
    exact Nat.le_refl _

/-- The parser behind an opening parenthesis. -/
def enter (parser : Parser) : Parser :=
  { parser.advance 1 with depth := parser.depth + 1 }

/-- The parser with one parenthesis less open. -/
def leave (parser : Parser) : Parser :=
  { parser with depth := parser.depth - 1 }

theorem enclosed_eq (inside : Parser → Node × Parser) (parser : Parser) :
    parser.enclosed inside =
      (.parenthesized parser.current (inside parser.enter).1
          ((inside parser.enter).2.leave.expect .closeParenthesis).1,
        ((inside parser.enter).2.leave.expect .closeParenthesis).2) := rfl

theorem number_eq (parser : Parser) :
    parser.number = (.number (parser.expect .number).1, (parser.expect .number).2) := rfl

/-! ### Loops -/

section Loops

variable {isOperator : Kind → Bool} {operand : Parser → Node × Parser}

theorem chain_of_not_isOperator {count : Nat} {left : Node} {parser : Parser}
    (h : isOperator parser.current.kind = false) :
    chain isOperator operand count left parser = (left, parser) := by
  cases count with
  | zero => rfl
  | succ count => simp [chain, h]

theorem chain_of_isOperator {count : Nat} {left : Node} {parser : Parser}
    (h : isOperator parser.current.kind = true) :
    chain isOperator operand (count + 1) left parser =
      chain isOperator operand count
        (.binary left parser.current (operand (parser.advance 1)).1)
        (operand (parser.advance 1)).2 := by
  simp [chain, h, next_eq]

/-- The current token is an operator only as long as some token remains. -/
theorem remaining_pos_of_isOperator (hend : isOperator .endOfFile = false) {parser : Parser}
    (h : isOperator parser.current.kind = true) : 0 < parser.remaining := by
  refine remaining_pos fun hkind => ?_
  rw [hkind, hend] at h
  cases h

theorem not_isOperator_of_remaining (hend : isOperator .endOfFile = false) {parser : Parser}
    (h : parser.remaining = 0) : isOperator parser.current.kind = false := by
  refine Bool.eq_false_iff.2 fun hop => ?_
  have hpos := remaining_pos_of_isOperator hend hop
  omega

/-- A round of a loop leaves fewer tokens than there were. -/
theorem remaining_round (hend : isOperator .endOfFile = false)
    (hoperand : ∀ parser, (operand parser).2.remaining ≤ parser.remaining) {parser : Parser}
    (h : isOperator parser.current.kind = true) :
    (operand (parser.advance 1)).2.remaining < parser.remaining := by
  have hle := hoperand (parser.advance 1)
  have hpos := remaining_pos_of_isOperator hend h
  rw [remaining_advance] at hle
  omega

/-- The invariant rule of a loop: what its rounds preserve holds at its end, where no operator is
left. -/
theorem chain_induction {motive : Node → Parser → Prop} (hend : isOperator .endOfFile = false)
    (hoperand : ∀ parser, (operand parser).2.remaining ≤ parser.remaining)
    (hround : ∀ left parser, motive left parser → isOperator parser.current.kind = true →
      motive (.binary left parser.current (operand (parser.advance 1)).1)
        (operand (parser.advance 1)).2)
    {count : Nat} {left : Node} {parser : Parser} (hcount : parser.remaining ≤ count)
    (h : motive left parser) :
    motive (chain isOperator operand count left parser).1
        (chain isOperator operand count left parser).2 ∧
      isOperator (chain isOperator operand count left parser).2.current.kind = false := by
  induction count generalizing left parser with
  | zero =>
      -- the bound is used up only when no token is left, and the end mark is no operator
      have hstop := not_isOperator_of_remaining hend (Nat.le_zero.1 hcount)
      rw [chain_of_not_isOperator hstop]
      exact ⟨h, hstop⟩
  | succ count ih =>
      cases hop : isOperator parser.current.kind with
      | false =>
          rw [chain_of_not_isOperator hop]
          exact ⟨h, hop⟩
      | true =>
          have hlt := remaining_round hend hoperand hop
          rw [chain_of_isOperator hop]
          exact ih (by omega) (hround left parser h hop)

/-- The same for operands with operators between them: the invariant has to hold behind the first
operand. -/
theorem leftAssociative_induction {motive : Node → Parser → Prop}
    (hend : isOperator .endOfFile = false)
    (hoperand : ∀ parser, (operand parser).2.remaining ≤ parser.remaining)
    (hround : ∀ left parser, motive left parser → isOperator parser.current.kind = true →
      motive (.binary left parser.current (operand (parser.advance 1)).1)
        (operand (parser.advance 1)).2)
    {parser : Parser} (h : motive (operand parser).1 (operand parser).2) :
    motive (leftAssociative isOperator operand parser).1
        (leftAssociative isOperator operand parser).2 ∧
      isOperator (leftAssociative isOperator operand parser).2.current.kind = false :=
  chain_induction hend hoperand hround (Nat.le_refl _) h

/-- A loop does not depend on the bound on its rounds, if the bound is large enough. -/
theorem chain_eq_chain (hend : isOperator .endOfFile = false)
    (hoperand : ∀ parser, (operand parser).2.remaining ≤ parser.remaining)
    {first second : Nat} {left : Node} {parser : Parser} (hfirst : parser.remaining ≤ first)
    (hsecond : parser.remaining ≤ second) :
    chain isOperator operand first left parser = chain isOperator operand second left parser := by
  induction first generalizing second left parser with
  | zero =>
      have hstop := not_isOperator_of_remaining hend (Nat.le_zero.1 hfirst)
      rw [chain_of_not_isOperator hstop, chain_of_not_isOperator hstop]
  | succ first ih =>
      cases hop : isOperator parser.current.kind with
      | false => rw [chain_of_not_isOperator hop, chain_of_not_isOperator hop]
      | true =>
          have hlt := remaining_round hend hoperand hop
          obtain ⟨count, rfl⟩ : ∃ count, second = count + 1 := ⟨second - 1, by omega⟩
          rw [chain_of_isOperator hop, chain_of_isOperator hop]
          exact ih (by omega) (by omega)

/-- One round of a loop whose bound is the number of remaining tokens. -/
theorem chain_round (hend : isOperator .endOfFile = false)
    (hoperand : ∀ parser, (operand parser).2.remaining ≤ parser.remaining) {left : Node}
    {parser : Parser} (hop : isOperator parser.current.kind = true) :
    chain isOperator operand parser.remaining left parser =
      chain isOperator operand (operand (parser.advance 1)).2.remaining
        (.binary left parser.current (operand (parser.advance 1)).1)
        (operand (parser.advance 1)).2 := by
  have hlt := remaining_round hend hoperand hop
  obtain ⟨count, hcount⟩ : ∃ count, parser.remaining = count + 1 := ⟨parser.remaining - 1, by omega⟩
  rw [hcount, chain_of_isOperator hop]
  exact chain_eq_chain hend hoperand (by omega) (Nat.le_refl _)

end Loops

/-! ### Readings -/

/-- `Reads levels rule parser node after` says that the rule, with `levels` more levels of
parentheses allowed, may read the tree from where the parser stands and leave it as `after`.  The
operands of an operation are complete: no operator follows them that would continue them. -/
inductive Reads : (levels : Nat) → Rule → Parser → Node → Parser → Prop
  | number {levels : Nat} {parser : Parser} :
      parser.current.kind ≠ .openParenthesis →
      Reads levels .primary parser (.number (parser.expect .number).1) (parser.expect .number).2
  | tooDeep {parser : Parser} :
      parser.current.kind = .openParenthesis →
      Reads 0 .primary parser parser.tooDeep.1 parser.tooDeep.2
  | parenthesized {levels : Nat} {parser after : Parser} {inner : Node} :
      parser.current.kind = .openParenthesis →
      Reads levels .expression parser.enter inner after →
      Reads (levels + 1) .primary parser
        (.parenthesized parser.current inner (after.leave.expect .closeParenthesis).1)
        (after.leave.expect .closeParenthesis).2
  | factor {levels : Nat} {parser after : Parser} {node : Node} :
      Reads levels .primary parser node after → Reads levels .factor parser node after
  | product {levels : Nat} {parser between after : Parser} {left right : Node} :
      Reads levels .factor parser left between →
      between.current.kind.isMultiplicative = true →
      Reads levels .primary (between.advance 1) right after →
      Reads levels .factor parser (.binary left between.current right) after
  | addition {levels : Nat} {parser after : Parser} {node : Node} :
      Reads levels .factor parser node after →
      after.current.kind.isMultiplicative = false →
      Reads levels .addition parser node after
  | sum {levels : Nat} {parser between after : Parser} {left right : Node} :
      Reads levels .addition parser left between →
      between.current.kind.isAdditive = true →
      Reads levels .factor (between.advance 1) right after →
      after.current.kind.isMultiplicative = false →
      Reads levels .addition parser (.binary left between.current right) after
  | expression {levels : Nat} {parser after : Parser} {node : Node} :
      Reads levels .addition parser node after →
      after.current.kind.isAdditive = false →
      Reads levels .expression parser node after

/-- `StopsAt rule kind` says that a reading of the rule may end before a token of the kind. -/
def StopsAt : Rule → Kind → Prop
  | .primary, _ => True
  | .factor, _ => True
  | .addition, kind => kind.isMultiplicative = false
  | .expression, kind => kind.isMultiplicative = false ∧ kind.isAdditive = false

namespace Reads

variable {levels : Nat} {rule : Rule} {parser after : Parser} {node : Node}

/-- What follows a reading is no operator that would continue it. -/
theorem stopsAt (h : Reads levels rule parser node after) :
    StopsAt rule after.current.kind := by
  induction h with
  | number _ => trivial
  | tooDeep _ => trivial
  | parenthesized _ _ _ => trivial
  | factor _ _ => trivial
  | product _ _ _ _ _ => trivial
  | addition _ hstop _ => exact hstop
  | sum _ _ _ hstop _ _ => exact hstop
  | expression _ hstop ih => exact ⟨ih, hstop⟩

theorem stream_eq (h : Reads levels rule parser node after) : after.stream = parser.stream := by
  induction h with
  | number _ => exact stream_expect _ _
  | tooDeep _ => rfl
  | parenthesized _ _ ih => rw [stream_expect]; exact ih
  | factor _ ih => exact ih
  | product _ _ _ ihLeft ihRight => exact ihRight.trans ihLeft
  | addition _ _ ih => exact ih
  | sum _ _ _ _ ihLeft ihRight => exact ihRight.trans ihLeft
  | expression _ _ ih => exact ih

/-- As many parentheses are open afterwards as before. -/
theorem depth_eq (h : Reads levels rule parser node after) : after.depth = parser.depth := by
  induction h with
  | number _ => exact depth_expect _ _
  | tooDeep _ => rfl
  | parenthesized _ _ ih =>
      rw [depth_expect, leave, ih, enter]
      exact Nat.add_sub_cancel _ _
  | factor _ ih => exact ih
  | product _ _ _ ihLeft ihRight => exact ihRight.trans ihLeft
  | addition _ _ ih => exact ih
  | sum _ _ _ _ ihLeft ihRight => exact ihRight.trans ihLeft
  | expression _ _ ih => exact ih

theorem position_le (h : Reads levels rule parser node after) :
    parser.position ≤ after.position := by
  induction h with
  | number _ => exact position_le_expect _ _
  | tooDeep _ => exact Nat.le_refl _
  | @parenthesized _ parser after _ _ _ ih =>
      calc parser.position ≤ parser.enter.position := Nat.le_add_right _ _
        _ ≤ after.leave.position := ih
        _ ≤ (after.leave.expect .closeParenthesis).2.position := position_le_expect _ _
  | factor _ ih => exact ih
  | product _ _ _ ihLeft ihRight =>
      exact Nat.le_trans ihLeft (Nat.le_trans (Nat.le_add_right _ 1) ihRight)
  | addition _ _ ih => exact ih
  | sum _ _ _ _ ihLeft ihRight =>
      exact Nat.le_trans ihLeft (Nat.le_trans (Nat.le_add_right _ 1) ihRight)
  | expression _ _ ih => exact ih

theorem remaining_le (h : Reads levels rule parser node after) :
    after.remaining ≤ parser.remaining := by
  rw [remaining, remaining, h.stream_eq]
  exact Nat.sub_le_sub_left h.position_le _

end Reads

/-! ### What the rules read -/

section Rules

variable {levels : Nat}

/-- If primaries are read, so are factors, as far as there are operators of products. -/
theorem reads_factor_of (h : ∀ parser,
      Reads levels .primary parser (primary levels parser).1 (primary levels parser).2)
    (parser : Parser) :
    Reads levels .factor parser (factor levels parser).1 (factor levels parser).2 ∧
      (factor levels parser).2.current.kind.isMultiplicative = false :=
  leftAssociative_induction (motive := fun node after => Reads levels .factor parser node after)
    rfl (fun parser => (h parser).remaining_le)
    (fun _ between hleft hop => .product hleft hop (h (between.advance 1))) (.factor (h parser))

/-- If primaries are read, so are additions, as far as there are operators of sums. -/
theorem reads_addition_of (h : ∀ parser,
      Reads levels .primary parser (primary levels parser).1 (primary levels parser).2)
    (parser : Parser) :
    Reads levels .addition parser (addition levels parser).1 (addition levels parser).2 ∧
      (addition levels parser).2.current.kind.isAdditive = false := by
  have hfactor := reads_factor_of h
  exact leftAssociative_induction
    (motive := fun node after => Reads levels .addition parser node after)
    rfl (fun parser => (hfactor parser).1.remaining_le)
    (fun _ between hleft hop =>
      .sum hleft hop (hfactor (between.advance 1)).1 (hfactor (between.advance 1)).2)
    (.addition (hfactor parser).1 (hfactor parser).2)

theorem reads_primary (levels : Nat) (parser : Parser) :
    Reads levels .primary parser (primary levels parser).1 (primary levels parser).2 := by
  induction levels generalizing parser with
  | zero =>
      by_cases h : parser.current.kind = .openParenthesis
      · rw [primary, if_pos h]
        exact .tooDeep h
      · rw [primary, if_neg h, number_eq]
        exact .number h
  | succ levels ih =>
      by_cases h : parser.current.kind = .openParenthesis
      · -- the rules of the inner expression are those of one level less
        have hinner := reads_addition_of ih parser.enter
        rw [primary, if_pos h, enclosed_eq]
        exact .parenthesized h (.expression hinner.1 hinner.2)
      · rw [primary, if_neg h, number_eq]
        exact .number h

theorem reads_factor (levels : Nat) (parser : Parser) :
    Reads levels .factor parser (factor levels parser).1 (factor levels parser).2 ∧
      (factor levels parser).2.current.kind.isMultiplicative = false :=
  reads_factor_of (reads_primary levels) parser

theorem reads_addition (levels : Nat) (parser : Parser) :
    Reads levels .addition parser (addition levels parser).1 (addition levels parser).2 ∧
      (addition levels parser).2.current.kind.isAdditive = false :=
  reads_addition_of (reads_primary levels) parser

theorem reads_expression (levels : Nat) (parser : Parser) :
    Reads levels .expression parser (expression levels parser).1 (expression levels parser).2 :=
  .expression (reads_addition levels parser).1 (reads_addition levels parser).2

theorem reads_apply (parser : Parser) (rule : Rule) :
    Reads (maxDepth - parser.depth) rule parser (parser.apply rule).1 (parser.apply rule).2 := by
  cases rule with
  | expression => exact reads_expression _ parser
  | addition => exact (reads_addition _ parser).1
  | factor => exact (reads_factor _ parser).1
  | primary => exact reads_primary _ parser

end Rules

/-! ### There is only one reading -/

/-- What a reading says about the function of its rule: a primary or an expression is the result of
the function, and from a factor or an addition on the loop of the function goes on. -/
def Computes (levels : Nat) : Rule → Parser → Node → Parser → Prop
  | .primary, parser, node, after => primary levels parser = (node, after)
  | .factor, parser, node, after =>
      factor levels parser =
        chain Kind.isMultiplicative (primary levels) after.remaining node after
  | .addition, parser, node, after =>
      addition levels parser = chain Kind.isAdditive (factor levels) after.remaining node after
  | .expression, parser, node, after => expression levels parser = (node, after)

namespace Reads

variable {levels : Nat} {rule : Rule} {parser after : Parser} {node : Node}

/-- Every reading is one that the function of its rule goes through. -/
theorem computes (h : Reads levels rule parser node after) :
    Computes levels rule parser node after := by
  induction h with
  | @number levels parser hkind =>
      cases levels <;> exact if_neg hkind
  | tooDeep hkind => exact if_pos hkind
  | @parenthesized levels parser after inner hkind _ ih =>
      have hinner : Parser.expression levels parser.enter = (inner, after) := ih
      have hprimary : primary (levels + 1) parser = parser.enclosed (Parser.expression levels) :=
        if_pos hkind
      rw [Computes, hprimary, enclosed_eq, hinner]
  | @factor levels parser after node _ ih =>
      have hfirst : primary levels parser = (node, after) := ih
      rw [Computes, Parser.factor, leftAssociative, hfirst]
  | @product levels parser between after left right _ hop _ ihLeft ihRight =>
      have hleft : Parser.factor levels parser = _ := ihLeft
      have hright : primary levels (between.advance 1) = (right, after) := ihRight
      rw [Computes, hleft,
        chain_round rfl (fun parser => (reads_primary levels parser).remaining_le) hop, hright]
  | @addition levels parser after node _ hstop ih =>
      have hfactor : Parser.factor levels parser = _ := ih
      rw [chain_of_not_isOperator hstop] at hfactor
      rw [Computes, Parser.addition, leftAssociative, hfactor]
  | @sum levels parser between after left right _ hop _ hstop ihLeft ihRight =>
      have hleft : Parser.addition levels parser = _ := ihLeft
      have hright : Parser.factor levels (between.advance 1) = _ := ihRight
      -- the loop of the right operand has stopped, and the loop of the sum takes over
      rw [chain_of_not_isOperator hstop] at hright
      rw [Computes, hleft,
        chain_round rfl (fun parser => (reads_factor levels parser).1.remaining_le) hop, hright]
  | @expression levels parser after node _ hstop ih =>
      have haddition : Parser.addition levels parser = _ := ih
      rw [chain_of_not_isOperator hstop] at haddition
      exact haddition

/-- The reading of an expression is what the rule of expressions computes. -/
theorem expression_eq (h : Reads levels .expression parser node after) :
    Parser.expression levels parser = (node, after) :=
  h.computes

end Reads

end Calculator.Parser
