/-
Kinds of tokens and expressions.

Everything in a syntax tree has a kind, whose name appears in diagnostics and in tree outlines.

* `Kind`, `Kind.name` — the kinds and their names;
* `Kind.ofName?` — the kind of a name, the inverse of `Kind.name`;
* `Kind.name_append_inj` — a name can be told from what stands behind it;
* `Kind.ofChar` — the kind of the token that a character begins;
* `Kind.isRun` — which tokens are runs of characters of their kind;
* `Kind.isTrivia`, `Kind.isAdditive`, `Kind.isMultiplicative` — the classes the parser looks at.
-/

import Calculator.Text.Blank
import Calculator.Text.Digit

set_option relaxedAutoImplicit false
set_option autoImplicit false

namespace Calculator

/-- The kinds of tokens, and behind them those of expressions. -/
inductive Kind where
  | endOfFile
  | number
  | whitespace
  | plus
  | minus
  | multiply
  | divide
  | openParenthesis
  | closeParenthesis
  | invalid
  | numberExpression
  | binaryExpression
  | parenthesizedExpression
deriving DecidableEq

namespace Kind

/-! ### Names -/

/-- The name of a kind in diagnostics and outlines. -/
def name : Kind → String
  | endOfFile => "EOFToken"
  | number => "NumberToken"
  | whitespace => "WhiteSpaceToken"
  | plus => "PlusToken"
  | minus => "MinusToken"
  | multiply => "MultiplyToken"
  | divide => "DivideToken"
  | openParenthesis => "OpenParenthesisToken"
  | closeParenthesis => "CloseParenthesisToken"
  | invalid => "InvalidToken"
  | numberExpression => "NumberExpression"
  | binaryExpression => "BinaryExpression"
  | parenthesizedExpression => "ParenthesizedExpression"

/-- All kinds. -/
def all : List Kind :=
  [endOfFile, number, whitespace, plus, minus, multiply, divide, openParenthesis,
   closeParenthesis, invalid, numberExpression, binaryExpression, parenthesizedExpression]

theorem mem_all (kind : Kind) : kind ∈ all := by
  cases kind <;> decide

/-- The kind with the given name. -/
def ofName? (text : String) : Option Kind :=
  all.find? (·.name = text)

/-- A kind is found under its name, so no two kinds share one. -/
theorem ofName?_name (kind : Kind) : ofName? kind.name = some kind := by
  cases kind <;> decide

theorem name_injective {a b : Kind} (h : a.name = b.name) : a = b := by
  have := congrArg ofName? h
  rwa [ofName?_name, ofName?_name, Option.some.injEq] at this

/-- A name consists of letters. -/
theorem isAlpha_of_mem_name {kind : Kind} {c : Char} (h : c ∈ kind.name.toList) :
    c.isAlpha = true := by
  have hletters : kind.name.toList.all Char.isAlpha = true := by cases kind <;> decide
  exact List.all_eq_true.1 hletters c h

/-- A name ends where something else than a letter stands behind it. -/
theorem name_append_inj {first second : Kind} {stop : Char} (hstop : stop.isAlpha = false)
    {rest more : List Char}
    (h : first.name.toList ++ stop :: rest = second.name.toList ++ stop :: more) :
    first = second ∧ rest = more := by
  have htake : ∀ (kind : Kind) (behind : List Char),
      (kind.name.toList ++ stop :: behind).takeWhile Char.isAlpha = kind.name.toList := by
    intro kind behind
    rw [List.takeWhile_append_of_pos fun c hc => isAlpha_of_mem_name hc,
      List.takeWhile_cons_of_neg (by simp [hstop]), List.append_nil]
  have hname : first.name.toList = second.name.toList := by
    rw [← htake first rest, h, htake]
  rw [hname, List.append_cancel_left_eq, List.cons.injEq] at h
  exact ⟨name_injective (String.toList_inj.1 hname), h.2⟩

/-! ### Kinds of characters -/

/-- The kind of the token that begins with the character. -/
def ofChar (c : Char) : Kind :=
  if Text.isDigit c then number
  else if Text.isBlank c then whitespace
  else match c with
    | '+' => plus
    | '-' => minus
    | '*' => multiply
    | '/' => divide
    | '(' => openParenthesis
    | ')' => closeParenthesis
    | _ => invalid

/-- Does a token of this kind take in the following characters of the same kind?  All others are
one character long. -/
def isRun : Kind → Bool
  | number | whitespace => true
  | _ => false

/-! ### Classes of kinds -/

/-- Tokens that the parser never sees. -/
def isTrivia : Kind → Bool
  | whitespace | invalid => true
  | _ => false

/-- The operators of sums. -/
def isAdditive : Kind → Bool
  | plus | minus => true
  | _ => false

/-- The operators of products. -/
def isMultiplicative : Kind → Bool
  | multiply | divide => true
  | _ => false

end Kind

end Calculator
