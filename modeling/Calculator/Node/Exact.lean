/-
Exact values of trees without division.

Sums, differences and products of whole numbers have a whole value of any size.  It says what
evaluation, which keeps to 32 bits at every step, should agree with modulo `2 ^ 32`.

* `Node.exactValue?` — the value of a tree in unbounded arithmetic, if all its numbers have values
  and all its operators add, subtract or multiply.
-/

import Calculator.Node

set_option relaxedAutoImplicit false
set_option autoImplicit false

namespace Calculator

/-- The result in unbounded arithmetic of the operation that a token stands for, if it adds,
subtracts or multiplies. -/
def Token.exactResult? (operator : Token) (left right : Int) : Option Int :=
  match operator.kind with
  | .plus => some (left + right)
  | .minus => some (left - right)
  | .multiply => some (left * right)
  | _ => none

namespace Node

/-- The value of the tree in unbounded arithmetic.  There is none for a tree with a division, with a
number that has no value, or with a bare token for an expression. -/
def exactValue? : Node → Option Int
  | leaf _ => none
  | number token => token.value
  | binary left operator right =>
      match left.exactValue?, right.exactValue? with
      | some leftValue, some rightValue => operator.exactResult? leftValue rightValue
      | _, _ => none
  | parenthesized _ inner _ => inner.exactValue?

end Node

end Calculator
