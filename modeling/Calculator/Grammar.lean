/-
The grammar of expressions.

    expression := addition
    addition   := factor  (('+' | '-') factor)*
    factor     := primary (('*' | '/') primary)*
    primary    := '(' expression ')' | number

A repetition is described from its right end: a sum is a shorter sum, an operator and one more
factor.  Every derivation is counted by the levels of parentheses that it may use.

* `Rule` — the rules of the grammar;
* `Derives` — the sequences of kinds that a rule derives with so many levels of parentheses.
-/

import Calculator.Kind

set_option relaxedAutoImplicit false
set_option autoImplicit false

namespace Calculator

/-- The rules of the grammar. -/
inductive Rule where
  | expression
  | addition
  | factor
  | primary
deriving DecidableEq

/-- `Derives levels rule kinds` says that the rule derives the sequence of kinds with parentheses
nested in at most `levels` levels. -/
inductive Derives : (levels : Nat) → Rule → List Kind → Prop where
  | number {levels : Nat} : Derives levels .primary [.number]
  | parentheses {levels : Nat} {kinds : List Kind} :
      Derives levels .expression kinds →
      Derives (levels + 1) .primary (.openParenthesis :: (kinds ++ [.closeParenthesis]))
  | factor {levels : Nat} {kinds : List Kind} :
      Derives levels .primary kinds → Derives levels .factor kinds
  | product {levels : Nat} {left right : List Kind} {operator : Kind} :
      Derives levels .factor left → operator.isMultiplicative = true →
      Derives levels .primary right → Derives levels .factor (left ++ operator :: right)
  | addition {levels : Nat} {kinds : List Kind} :
      Derives levels .factor kinds → Derives levels .addition kinds
  | sum {levels : Nat} {left right : List Kind} {operator : Kind} :
      Derives levels .addition left → operator.isAdditive = true →
      Derives levels .factor right → Derives levels .addition (left ++ operator :: right)
  | expression {levels : Nat} {kinds : List Kind} :
      Derives levels .addition kinds → Derives levels .expression kinds

end Calculator
