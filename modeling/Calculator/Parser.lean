/-
The parser.

The parser reads the tokens of a text, without whitespace and invalid tokens, by the rules of the
grammar.  Operators of one rule associate to the left.  The parser never gives up: a placeholder
stands in for a missing token, with a diagnostic, and the token found instead is left for the next
rule.  An opening parenthesis below `maxDepth` others is noted and not followed, and a placeholder
number stands in for it.

* `Parser` — the tokens, the index of the current one, the open parentheses and the diagnostics;
* `Parser.peek`, `Parser.next`, `Parser.expect` — looking at tokens and consuming them;
* `Parser.chain`, `Parser.leftAssociative` — operands with operators between them;
* `Parser.primary` — the only rule that calls itself, by recursion on the levels of parentheses
  that may still be opened;
* `Parser.apply` — the rules by name;
* `Parser.readAll`, `parse` — an expression up to the end mark, and a whole text.
-/

import Calculator.Grammar
import Calculator.Lexer
import Calculator.Parsed

set_option relaxedAutoImplicit false
set_option autoImplicit false

namespace Calculator

/-- A token stream that is being read by the rules of the grammar. -/
structure Parser where
  /-- The tokens, without those the parser never sees. -/
  stream : TokenStream
  /-- The number of tokens consumed.  The end mark can be consumed any number of times. -/
  position : Nat := 0
  depth : Nat := 0
  diagnostics : DiagnosticLog := {}
deriving DecidableEq

namespace Parser

/-- A parser at the beginning of a text, with the lexer's diagnostics already noted. -/
def ofText (text : String) : Except TooManyDigits Parser :=
  match tokenize text with
  | .ok (stream, diagnostics) => .ok { stream := stream.withoutTrivia, diagnostics }
  | .error fault => .error fault

/-! ### Looking at tokens -/

/-- The current token. -/
def current (parser : Parser) : Token :=
  parser.stream.get parser.position

/-- The number of tokens before the end mark that have not been consumed. -/
def remaining (parser : Parser) : Nat :=
  parser.stream.tokens.size - parser.position

/-- Looking further back than the stream allows. -/
inductive PeekFault where
  /-- The index lies before the beginning of the stream. -/
  | beforeStart
  /-- The index is not even a signed 64-bit number. -/
  | unaddressable
deriving DecidableEq

/-- The wording of the fault. -/
def PeekFault.message : PeekFault → String
  | .beforeStart => "list index out of range"
  | .unaddressable => "cannot fit 'int' into an index-sized integer"

/-- The smallest index that can be looked up, `-2 ^ 63`. -/
def minIndex : Int := -0x8000000000000000

/-- The token `offset` behind the current one, which is the end mark from the end of the stream on.
An index below zero counts from the end of the stream, but not beyond its beginning. -/
def peek (parser : Parser) (offset : Int) : Except PeekFault Token :=
  match (parser.position : Int) + offset with
  | .ofNat index => .ok (parser.stream.get index)
  | .negSucc back =>
      if back < parser.stream.size then .ok (parser.stream.get (parser.stream.size - 1 - back))
      else if minIndex ≤ .negSucc back then .error .beforeStart
      else .error .unaddressable

/-! ### Consuming tokens -/

/-- Consumes the current token. -/
def next (parser : Parser) : Token × Parser :=
  (parser.current, { parser with position := parser.position + 1 })

/-- Notes a diagnostic. -/
def report (parser : Parser) (diagnostic : Diagnostic) : Parser :=
  { parser with diagnostics := parser.diagnostics.report diagnostic }

/-- Consumes the current token if it has the required kind.  If not, notes that and puts a
placeholder in its place; the current token stays. -/
def expect (kind : Kind) (parser : Parser) : Token × Parser :=
  if parser.current.kind = kind then parser.next
  else
    (Token.placeholder kind parser.current.position,
      parser.report (.unexpectedToken kind parser.current.kind))

/-! ### Rules -/

/-- The number of parentheses that may be open at a time. -/
def maxDepth : Nat := 100

/-- Extends the operand `left` as long as there are operators of the given class, each followed by
an operand.  `count` bounds the number of operators to come. -/
def chain (isOperator : Kind → Bool) (operand : Parser → Node × Parser) :
    (count : Nat) → (left : Node) → Parser → Node × Parser
  -- no operator is left here, since every operator is a token
  | 0, left, parser => (left, parser)
  | count + 1, left, parser =>
      if isOperator parser.current.kind then
        let (operator, parser) := parser.next
        let (right, parser) := operand parser
        chain isOperator operand count (.binary left operator right) parser
      else (left, parser)

/-- Operands with operators of the given class between them, associated to the left.  There are at
most as many operators as tokens before the end mark. -/
def leftAssociative (isOperator : Kind → Bool) (operand : Parser → Node × Parser)
    (parser : Parser) : Node × Parser :=
  let (left, parser) := operand parser
  chain isOperator operand parser.remaining left parser

/-- A number token, or a placeholder for it. -/
def number (parser : Parser) : Node × Parser :=
  let (token, parser) := parser.expect .number
  (.number token, parser)

/-- A placeholder number for parentheses nested too deep, of which nothing is consumed. -/
def tooDeep (parser : Parser) : Node × Parser :=
  (.number (Token.placeholder .number parser.current.position),
    parser.report (.nestingTooDeep maxDepth))

/-- Consumes an opening parenthesis, reads what it encloses by the given rule, and requires the
closing parenthesis. -/
def enclosed (inside : Parser → Node × Parser) (parser : Parser) : Node × Parser :=
  let (opening, parser) := parser.next
  let (inner, parser) := inside { parser with depth := parser.depth + 1 }
  let (closing, parser) := expect .closeParenthesis { parser with depth := parser.depth - 1 }
  (.parenthesized opening inner closing, parser)

/-- A number, or an expression in parentheses if `levels` allows for another level of them. -/
def primary : (levels : Nat) → Parser → Node × Parser
  | 0, parser =>
      if parser.current.kind = .openParenthesis then parser.tooDeep else parser.number
  | levels + 1, parser =>
      if parser.current.kind = .openParenthesis then
        -- the rules of additions and factors, which are defined by this one further below
        parser.enclosed
          (leftAssociative Kind.isAdditive (leftAssociative Kind.isMultiplicative (primary levels)))
      else parser.number

/-- Primaries with multiplication and division between them. -/
def factor (levels : Nat) : Parser → Node × Parser :=
  leftAssociative Kind.isMultiplicative (primary levels)

/-- Factors with addition and subtraction between them. -/
def addition (levels : Nat) : Parser → Node × Parser :=
  leftAssociative Kind.isAdditive (factor levels)

/-- An expression. -/
def expression (levels : Nat) : Parser → Node × Parser :=
  addition levels

/-! ### Whole texts -/

/-- Reads as much as the rule takes, from the current token on. -/
def apply (parser : Parser) : Rule → Node × Parser
  | .expression => Parser.expression (maxDepth - parser.depth) parser
  | .addition => Parser.addition (maxDepth - parser.depth) parser
  | .factor => Parser.factor (maxDepth - parser.depth) parser
  | .primary => Parser.primary (maxDepth - parser.depth) parser

/-- Reads an expression and requires the end mark behind it. -/
def readAll (parser : Parser) : Parsed × Parser :=
  let (root, parser) := parser.apply .expression
  let (endOfFile, parser) := parser.expect .endOfFile
  ({ root, endOfFile, diagnostics := parser.diagnostics.toList }, parser)

end Parser

/-- Parses a text. -/
def parse (text : String) : Except TooManyDigits Parsed :=
  match Parser.ofText text with
  | .ok parser => .ok parser.readAll.1
  | .error fault => .error fault

end Calculator
