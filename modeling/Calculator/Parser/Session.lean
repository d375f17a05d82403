/-
Sessions with a parser.

In a session the operations of a parser are called one after the other, in any order and from any
place in the tokens, also behind their end.

* `Parser.Step`, `Parser.Answer` — what can be asked of a parser, and what it answers;
* `Parser.perform` — one step.
-/

import Calculator.Parser

set_option relaxedAutoImplicit false
set_option autoImplicit false

namespace Calculator.Parser

/-- What can be asked of a parser. -/
inductive Step where
  /-- The token so many places behind the current one. -/
  | peek (offset : Int)
  | current
  | next
  /-- To consume the current token if it has the given kind. -/
  | expect (kind : Kind)
  | rule (rule : Rule)
  | readAll
deriving DecidableEq

/-- What a parser answers. -/
inductive Answer where
  | token (token : Token)
  | node (node : Node)
  | parsed (parsed : Parsed)
deriving DecidableEq

/-- Performs one step.  Only looking too far back can fail. -/
def perform (parser : Parser) : Step → Except PeekFault Answer × Parser
  | .peek offset => ((parser.peek offset).map .token, parser)
  | .current => (.ok (.token parser.current), parser)
  | .next =>
      let (token, parser) := parser.next
      (.ok (.token token), parser)
  | .expect kind =>
      let (token, parser) := parser.expect kind
      (.ok (.token token), parser)
  | .rule rule =>
      let (node, parser) := parser.apply rule
      (.ok (.node node), parser)
  | .readAll =>
      let (parsed, parser) := parser.readAll
      (.ok (.parsed parsed), parser)

end Calculator.Parser
