/-
Diagnostics.

Neither the lexer nor the parser stops at a fault in the text.  They note it and go on, and the
notes stay in the order in which the faults were found.

* `Diagnostic`, `Diagnostic.message` — what can be wrong with a text, and its wording;
* `DiagnosticLog` — the diagnostics noted so far;
* `DiagnosticLog.report`, `DiagnosticLog.extend` — noting one more, or several;
* `DiagnosticLog.describe` — the textual form of a log.
-/

import Calculator.Kind
import Calculator.Text.Quoted

set_option relaxedAutoImplicit false
set_option autoImplicit false

namespace Calculator

/-- A fault in the text. -/
inductive Diagnostic where
  | invalidCharacter (text : String)
  | invalidNumber (text : String)
  | unexpectedToken (expected found : Kind)
  | nestingTooDeep (limit : Int)
  /-- A remark in words of its own. -/
  | remark (text : String)
deriving DecidableEq

namespace Diagnostic

/-- The wording of a diagnostic.  Nothing in it is escaped. -/
def message : Diagnostic → String
  | invalidCharacter text => "Invalid character input '" ++ text ++ "'"
  | invalidNumber text => "Text " ++ text ++ " is not a valid int32"
  | unexpectedToken expected found =>
      "Error: Unexpected token, Expected: <" ++ expected.name ++ "> Found: <" ++ found.name ++ ">"
  | nestingTooDeep limit =>
      "Error: Parentheses nested deeper than " ++ toString limit ++ " levels"
  | remark text => text

end Diagnostic

/-- Diagnostics in the order in which they were noted. -/
structure DiagnosticLog where
  /-- The diagnostics, oldest first. -/
  entries : Array Diagnostic := #[]
deriving DecidableEq

namespace DiagnosticLog

/-! ### Contents -/

/-- The log that holds the given diagnostics. -/
def ofList (diagnostics : List Diagnostic) : DiagnosticLog :=
  ⟨diagnostics.toArray⟩

/-- The diagnostics of the log, oldest first. -/
def toList (log : DiagnosticLog) : List Diagnostic :=
  log.entries.toList

/-- The wordings of the diagnostics, oldest first. -/
def messages (log : DiagnosticLog) : List String :=
  log.toList.map Diagnostic.message

/-- The number of diagnostics. -/
def size (log : DiagnosticLog) : Nat :=
  log.entries.size

/-- Does the log hold no diagnostic? -/
def isEmpty (log : DiagnosticLog) : Bool :=
  log.entries.isEmpty

/-! ### Noting diagnostics -/

/-- Notes one more diagnostic. -/
def report (log : DiagnosticLog) (diagnostic : Diagnostic) : DiagnosticLog :=
  ⟨log.entries.push diagnostic⟩

/-- Notes further diagnostics, in their order. -/
def extend (log : DiagnosticLog) (diagnostics : List Diagnostic) : DiagnosticLog :=
  ⟨log.entries.appendList diagnostics⟩

/-- The log without its diagnostics. -/
def clear (_log : DiagnosticLog) : DiagnosticLog :=
  {}

@[simp] theorem toList_ofList (diagnostics : List Diagnostic) :
    (ofList diagnostics).toList = diagnostics := by
  simp [ofList, toList]

@[simp] theorem toList_empty : ({} : DiagnosticLog).toList = [] := rfl

@[simp] theorem toList_report (log : DiagnosticLog) (diagnostic : Diagnostic) :
    (log.report diagnostic).toList = log.toList ++ [diagnostic] := by
  simp [report, toList]

@[simp] theorem toList_extend (log : DiagnosticLog) (diagnostics : List Diagnostic) :
    (log.extend diagnostics).toList = log.toList ++ diagnostics := by
  simp [extend, toList]

@[simp] theorem toList_clear (log : DiagnosticLog) : log.clear.toList = [] := rfl

/-- Two logs are the same if they hold the same diagnostics in the same order. -/
theorem ext_toList {a b : DiagnosticLog} (h : a.toList = b.toList) : a = b := by
  cases a
  cases b
  simpa [toList] using h

/-! ### Textual form -/

/-- The textual form of a list of messages: quoted, with commas between them. -/
def describeMessages (messages : List String) (hidden : Char → Bool := Text.isHidden) : String :=
  let quoted := messages.map fun message => Text.quote message hidden
  "DiagnosticBag([" ++ ", ".intercalate quoted ++ "])"

/-- The textual form of the log. -/
def describe (log : DiagnosticLog) : String :=
  describeMessages log.messages

end DiagnosticLog

end Calculator
