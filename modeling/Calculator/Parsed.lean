/-
Parsed texts.

* `Parsed` — what the parser makes of a text: a syntax tree, the end mark and the diagnostics;
* `Parsed.hasDiagnostics` — is something wrong with the text?
* `Parsed.erasePositions` — what is left of it without the offsets of tokens.
-/

import Calculator.Diagnostic
import Calculator.Node

set_option relaxedAutoImplicit false
set_option autoImplicit false

namespace Calculator

/-- What the parser makes of a text. -/
structure Parsed where
  root : Node
  /-- The end mark, or what stands in for it. -/
  endOfFile : Token
  /-- What is wrong with the text: first what the lexer noted, then what the parser did. -/
  diagnostics : List Diagnostic
deriving DecidableEq

namespace Parsed

/-- Is something wrong with the text? -/
def hasDiagnostics (parsed : Parsed) : Bool :=
  !parsed.diagnostics.isEmpty

/-- The parsed text without the offsets of its tokens. -/
def erasePositions (parsed : Parsed) : Parsed :=
  { parsed with root := parsed.root.erasePositions, endOfFile := parsed.endOfFile.erasePosition }

end Parsed

end Calculator
