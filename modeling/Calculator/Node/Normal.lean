/-
Trees in the shape of the grammar.

A tree is normal for a rule of the grammar if it groups its tokens the way the rule does: products
inside sums unless there are parentheses between them, and of several operators of one rule the
rightmost at the root.

* `Node.Normal` — the trees of a rule, with so many levels of parentheses;
* `Node.Normal.mono` — more levels allow no fewer trees;
* `Node.Normal.derives` — the tokens of such a tree are derived by the rule.
-/

import Calculator.Grammar
import Calculator.Node

set_option relaxedAutoImplicit false
set_option autoImplicit false

namespace Calculator.Node

/-- `Normal levels rule node` says that the tree has the shape that the rule requires, with
parentheses nested in at most `levels` levels. -/
inductive Normal : (levels : Nat) → Rule → Node → Prop where
  | number {levels : Nat} {token : Token} :
      token.kind = .number → Normal levels .primary (.number token)
  | parenthesized {levels : Nat} {opening closing : Token} {inner : Node} :
      opening.kind = .openParenthesis → Normal levels .expression inner →
      closing.kind = .closeParenthesis →
      Normal (levels + 1) .primary (.parenthesized opening inner closing)
  | factor {levels : Nat} {node : Node} :
      Normal levels .primary node → Normal levels .factor node
  | product {levels : Nat} {left right : Node} {operator : Token} :
      Normal levels .factor left → operator.kind.isMultiplicative = true →
      Normal levels .primary right → Normal levels .factor (.binary left operator right)
  | addition {levels : Nat} {node : Node} :
      Normal levels .factor node → Normal levels .addition node
  | sum {levels : Nat} {left right : Node} {operator : Token} :
      Normal levels .addition left → operator.kind.isAdditive = true →
      Normal levels .factor right → Normal levels .addition (.binary left operator right)
  | expression {levels : Nat} {node : Node} :
      Normal levels .addition node → Normal levels .expression node

/-- A tree in the shape of a rule has that shape also with one more level of parentheses. -/
theorem Normal.succ {levels : Nat} {rule : Rule} {node : Node} (h : Normal levels rule node) :
    Normal (levels + 1) rule node := by
  induction h with
  | number htoken => exact .number htoken
  | parenthesized hopening _ hclosing ih => exact .parenthesized hopening ih hclosing
  | factor _ ih => exact .factor ih
  | product _ hop _ ihLeft ihRight => exact .product ihLeft hop ihRight
  | addition _ ih => exact .addition ih
  | sum _ hop _ ihLeft ihRight => exact .sum ihLeft hop ihRight
  | expression _ ih => exact .expression ih

/-- More levels of parentheses allow no fewer trees. -/
theorem Normal.mono {levels more : Nat} {rule : Rule} {node : Node} (hle : levels ≤ more)
    (h : Normal levels rule node) : Normal more rule node := by
  induction hle with
  | refl => exact h
  | step _ ih => exact ih.succ

/-- The kinds of the tokens of a normal tree are derived by its rule. -/
theorem Normal.derives {levels : Nat} {rule : Rule} {node : Node} (h : Normal levels rule node) :
    Derives levels rule (node.leaves.map Token.kind) := by
  induction h with
  | number htoken =>
      simp only [leaves, List.map_cons, List.map_nil, htoken]
      exact .number
  | parenthesized hopening _ hclosing ih =>
      simp only [leaves, List.map_cons, List.map_append, List.map_nil, hopening, hclosing]
      exact .parentheses ih
  | factor _ ih => exact .factor ih
  | product _ hop _ ihLeft ihRight =>
      simp only [leaves, List.map_append, List.map_cons]
      exact .product ihLeft hop ihRight
  | addition _ ih => exact .addition ih
  | sum _ hop _ ihLeft ihRight =>
      simp only [leaves, List.map_append, List.map_cons]
      exact .sum ihLeft hop ihRight
  | expression _ ih => exact .expression ih

end Calculator.Node
