/-
The interactive shell.

The shell answers each line with the value of the expression on it, or with everything that is
wrong with it, and shows the outline of its syntax tree if it was asked to.  Two lines are commands
instead: `#showTree` switches outlines on and off, and `#cls` clears the screen.  Which outlines
are shown is all that the shell remembers from one line to the next.

* `Device`, `Device.write` — a terminal, or an output that must not hold control sequences;
* `Shell` — the settings of a shell;
* `Shell.Command`, `Shell.execute` — the commands;
* `Shell.answer` — the answer to a line that is no command;
* `Shell.Step`, `Shell.perform` — what can be asked of a shell, and what comes of it;
* `Shell.Step.ofLine`, `Shell.Turn`, `Shell.turn` — the lines of a session, and what one of them
  does to it;
* `Shell.run` — the session.
-/

import Calculator.Evaluation
import Calculator.Outline
import Calculator.Parser
import Calculator.Text.Ansi
import Calculator.Text.Blank

set_option relaxedAutoImplicit false
set_option autoImplicit false

namespace Calculator

/-! ### Output -/

/-- Where output goes. -/
inductive Device where
  /-- To a terminal, which obeys control sequences. -/
  | terminal
  /-- To a file or another program. -/
  | plain
deriving DecidableEq

/-- What arrives of a text: all of it on a terminal, elsewhere only what is no control sequence. -/
def Device.write (text : String) : Device → String
  | .terminal => text
  | .plain => String.ofList (Text.Ansi.strip text.toList)

/-- The settings of a shell. -/
structure Shell where
  showTree : Bool := false
  color : Bool := true
deriving DecidableEq

namespace Shell

/-- The text in the color, if the shell uses colors. -/
def paint (shell : Shell) (color : Text.Ansi.Color) (text : String) : String :=
  if shell.color then Text.Ansi.paint color text else text

/-! ### Commands -/

/-- The commands of the shell. -/
inductive Command where
  | toggleTree
  | clearScreen
deriving DecidableEq

/-- The command that the text calls, if it is one. -/
def Command.ofText? (text : String) : Option Command :=
  if text = "#showTree" then some .toggleTree
  else if text = "#cls" then some .clearScreen
  else none

/-- Executes a command: what is written, and the shell afterwards. -/
def execute (device : Device) (shell : Shell) : Command → String × Shell
  | .toggleTree =>
      let showTree := !shell.showTree
      let notice := if showTree then "Showing parse trees." else "Not showing parse trees."
      (device.write (notice ++ "\n"), { shell with showTree })
  | .clearScreen =>
      (if device = .terminal then Text.Ansi.clearScreen else "", shell)

/-! ### Lines -/

/-- What the shell cannot answer. -/
inductive Fault where
  /-- The line holds a number that cannot be read. -/
  | unreadable (fault : TooManyDigits)
  /-- There is no rule for the syntax tree of the line. -/
  | internal (fault : InternalFault)
deriving DecidableEq

/-- The wording of the fault. -/
def Fault.message : Fault → String
  | unreadable fault => fault.message
  | internal fault => fault.message

/-- What the shell has written, and the fault that ended it, if any. -/
structure Response where
  output : String
  fault : Option Fault := none
deriving DecidableEq

/-- The text behind the outline: every diagnostic, or else the value or why there is none. -/
def verdict (shell : Shell) (parsed : Parsed) : Except InternalFault (List String) :=
  if parsed.hasDiagnostics then
    .ok (parsed.diagnostics.map fun diagnostic => shell.paint .red diagnostic.message ++ "\n")
  else
    match parsed.root.evaluate with
    | .ok value => .ok [toString value ++ "\n"]
    | .error (.internal fault) => .error fault
    | .error fault => .ok [shell.paint .red fault.message ++ "\n"]

/-- The pieces of text that show the outline, none if outlines are off. -/
def display (shell : Shell) (parsed : Parsed) : List String :=
  if shell.showTree then [shell.paint .gray parsed.root.outline] else []

/-- Writes pieces of text one after the other. -/
def writeAll (device : Device) (pieces : List String) : String :=
  String.join (pieces.map device.write)

/-- The answer to a line that is no command.  Nothing is written if the line cannot be read. -/
def answer (device : Device) (shell : Shell) (line : String) : Response :=
  match parse line with
  | .error fault => { output := "", fault := some (.unreadable fault) }
  | .ok parsed =>
      match shell.verdict parsed with
      | .ok pieces => { output := writeAll device (shell.display parsed ++ pieces) }
      | .error fault =>
          { output := writeAll device (shell.display parsed), fault := some (.internal fault) }

/-! ### Sessions -/

/-- What can be asked of a shell. -/
inductive Step where
  /-- To execute a text as a command if it is one. -/
  | command (text : String)
  /-- To answer a line. -/
  | line (text : String)
deriving DecidableEq

/-- Performs one step.  Nothing comes of a text that should be a command but is none. -/
def perform (device : Device) (shell : Shell) : Step → Response × Shell
  | .command text =>
      match Command.ofText? text with
      | some command =>
          let (output, shell) := shell.execute device command
          ({ output }, shell)
      | none => ({ output := "" }, shell)
  | .line text => (shell.answer device text, shell)

/-- The step that a line of a session calls for.  A command may have blanks around it, which are no
part of it; every other line is answered as it is. -/
def Step.ofLine (line : String) : Step :=
  let text := String.ofList (Text.trim line.toList)
  match Command.ofText? text with
  | some _ => .command text
  | none => .line line

/-- How a session goes on after a line. -/
inductive Turn where
  /-- It ends, and nothing is done about the line. -/
  | leave
  /-- It ends with the fault, once the output is written. -/
  | fail (output : String) (fault : Fault)
  /-- It goes on with the shell, once the output is written. -/
  | proceed (output : String) (shell : Shell)
deriving DecidableEq

/-- Takes in a line of a session.  A blank line ends the session, and so does a line that cannot be
answered. -/
def turn (device : Device) (shell : Shell) (line : String) : Turn :=
  if Text.isBlankLine line.toList then .leave
  else
    let (response, shell) := shell.perform device (.ofLine line)
    match response.fault with
    | some fault => .fail response.output fault
    | none => .proceed response.output shell

/-- A session over the given lines.  The prompt is written before each line is taken in; the end of
the lines ends the session, too. -/
def run (device : Device) (prompt : String) (shell : Shell) : List String → Response
  | [] => { output := device.write prompt }
  | line :: more =>
      match shell.turn device line with
      | .leave => { output := device.write prompt }
      | .fail output fault => { output := device.write prompt ++ output, fault := some fault }
      | .proceed output shell =>
          let later := run device prompt shell more
          { output := device.write prompt ++ output ++ later.output, fault := later.fault }

end Shell

end Calculator
