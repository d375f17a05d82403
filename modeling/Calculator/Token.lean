/-
Tokens.

A token is a piece of the source text with its kind and the offset, in characters, at which it
begins.  A number token also carries the number.  The parser makes up empty tokens for what it
misses in its input; such a placeholder has no value.

* `Token` — tokens;
* `Token.endAt`, `Token.placeholder` — the end mark and the stand-in for a missing token;
* `Token.isWritten` — does a token stand in the text?
* `Token.erasePosition` — a token without its offset;
* `Token.describe` — the textual form of a token.
-/

import Calculator.Kind
import Calculator.Text.Quoted

set_option relaxedAutoImplicit false
set_option autoImplicit false

namespace Calculator

/-- A token of the source text, or one that stands in for a missing token. -/
structure Token where
  kind : Kind
  /-- The offset of its first character. -/
  position : Int
  text : String
  /-- The number that a number token denotes. -/
  value : Option Int := none
deriving DecidableEq

namespace Token

/-- The end mark of a text of the given length. -/
def endAt (position : Nat) : Token :=
  { kind := .endOfFile, position, text := "" }

/-- The empty token that stands in for a missing token of the given kind. -/
def placeholder (kind : Kind) (position : Int) : Token :=
  { kind, position, text := "" }

/-- Does the token stand in the text?  The end mark and placeholders have no characters. -/
def isWritten (token : Token) : Bool :=
  token.text ≠ ""

@[simp] theorem isWritten_placeholder (kind : Kind) (position : Int) :
    (placeholder kind position).isWritten = false := rfl

/-- The token without its offset. -/
def erasePosition (token : Token) : Token :=
  { token with position := 0 }

theorem kind_eq_of_erasePosition_eq {first second : Token}
    (h : first.erasePosition = second.erasePosition) : first.kind = second.kind := by
  have hkind : first.erasePosition.kind = second.erasePosition.kind := by rw [h]
  exact hkind

/-- The textual form: the kind, and in parentheses the quoted text and the value if there is
one. -/
def describe (token : Token) (hidden : Char → Bool := Text.isHidden) : String :=
  let value := match token.value with
    | some value => " -> " ++ toString value
    | none => ""
  token.kind.name ++ "(" ++ Text.quote token.text hidden ++ value ++ ")"

end Token

end Calculator
