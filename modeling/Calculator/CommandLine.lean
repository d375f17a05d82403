/-
The command line.

The program takes options only.  They choose whether outlines are shown, whether colors are used
and what the prompt is; of an option given twice the last one counts.  An environment variable
says whether outlines are shown if no option does.  The first of the options that ask for the
version or for help is answered instead of starting a session, even if other arguments would keep
a session from being started.

* `CommandLine.Reading`, `CommandLine.readFrom` — what the arguments say;
* `CommandLine.Request`, `CommandLine.request` — what the arguments ask for;
* `CommandLine.showTreeDefault` — what the environment variable says;
* `CommandLine.Start`, `CommandLine.resolve` — the settings of the session that is to be started;
* `CommandLine.plan` — whether there is a session, and what happens if there is none;
* `CommandLine.run` — the whole program, from its arguments and its input to its output.
-/

import Calculator.Shell
import Calculator.Text.Lines

set_option relaxedAutoImplicit false
set_option autoImplicit false

namespace Calculator.CommandLine

/-! ### Texts -/

/-- The answer to `--version`. -/
def versionText : String :=
  "dacomp, version 0.2.0\n"

/-- The answer to `--help`. -/
def helpText : String :=
  Outline.unlines
    ["Usage: dacomp [OPTIONS]",
     "",
     "  Evaluate integer arithmetic expressions interactively.",
     "",
     "Options:",
     "  --show-tree / --hide-tree  Print the parse tree of every line.  [default:",
     "                             hide-tree]",
     "  --color / --no-color       Color tree dumps and diagnostics.  [default:",
     "                             color]",
     "  --prompt TEXT              Input prompt.  [default: > ]",
     "  --version                  Show the version and exit.",
     "  --help                     Show this message and exit."]

/-! ### Arguments -/

/-- What the options say about a session. -/
structure Options where
  /-- Are outlines shown?  Nothing if no option says so. -/
  showTree : Option Bool := none
  color : Bool := true
  /-- What is written before each line is read. -/
  prompt : String := "> "
deriving DecidableEq

/-- What the arguments ask for. -/
inductive Request where
  | start (options : Options)
  | version
  | help
deriving DecidableEq

/-- A use of the program that it does not understand. -/
inductive UsageError where
  /-- An argument that looks like an option but is none. -/
  | unknownOption (argument : String)
  /-- An option without the text that belongs to it. -/
  | missingText (option : String)
  /-- An argument that is no option, the first of perhaps several. -/
  | unexpectedArgument (argument : String)
  /-- A value of the environment variable that is neither true nor false. -/
  | notBoolean (value : String)
deriving DecidableEq

/-- The wording of the error. -/
def UsageError.message : UsageError → String
  | unknownOption argument => "No such option: " ++ argument
  | missingText option => "Option '" ++ option ++ "' requires an argument."
  | unexpectedArgument argument => "Got unexpected extra argument (" ++ argument ++ ")"
  | notBoolean value => "'" ++ value ++ "' is not a valid boolean."

/-- What arguments say. -/
structure Reading where
  options : Options := {}
  /-- What the first of them that asks for the version or for help asks for. -/
  answer : Option Request := none
  /-- The first of them that is no option. -/
  extra : Option String := none
deriving DecidableEq

/-- What is asked for: the version or help if anything asks for it, and else a session, for which
only options may be given. -/
def Reading.request (reading : Reading) : Except UsageError Request :=
  match reading.answer, reading.extra with
  | some answer, _ => .ok answer
  | none, some argument => .error (.unexpectedArgument argument)
  | none, none => .ok (.start reading.options)

/-- Asks for the version or for help, unless that was done before. -/
def Reading.ask (reading : Reading) (request : Request) : Reading :=
  { reading with answer := reading.answer.or (some request) }

/-- Takes in an argument that is no option. -/
def Reading.addExtra (reading : Reading) (argument : String) : Reading :=
  { reading with extra := reading.extra.or (some argument) }

/-- The text behind `--prompt=` in an argument that begins so. -/
def promptText? (argument : String) : Option String :=
  let opening := "--prompt=".toList
  if opening.isPrefixOf argument.toList then
    some (String.ofList (argument.toList.drop opening.length))
  else none

/-- Does the argument look like an option?  It does if anything follows a hyphen at its
beginning. -/
def looksLikeOption (argument : String) : Bool :=
  match argument.toList with
  | '-' :: _ :: _ => true
  | _ => false

/-- Reads arguments from left to right, after those of which `reading` tells.  Behind the argument
`--` there are no more options. -/
def readFrom (reading : Reading) : List String → Except UsageError Reading
  | [] => .ok reading
  | "--show-tree" :: more =>
      readFrom { reading with options := { reading.options with showTree := some true } } more
  | "--hide-tree" :: more =>
      readFrom { reading with options := { reading.options with showTree := some false } } more
  | "--color" :: more =>
      readFrom { reading with options := { reading.options with color := true } } more
  | "--no-color" :: more =>
      readFrom { reading with options := { reading.options with color := false } } more
  | "--version" :: more => readFrom (reading.ask .version) more
  | "--help" :: more => readFrom (reading.ask .help) more
  | "--" :: more => .ok (more.foldl Reading.addExtra reading)
  | ["--prompt"] => .error (.missingText "--prompt")
  | "--prompt" :: prompt :: more =>
      readFrom { reading with options := { reading.options with prompt } } more
  | argument :: more =>
      match promptText? argument with
      | some prompt => readFrom { reading with options := { reading.options with prompt } } more
      | none =>
          if looksLikeOption argument then .error (.unknownOption argument)
          else readFrom (reading.addExtra argument) more

/-- What the arguments ask for. -/
def request (arguments : List String) : Except UsageError Request :=
  match readFrom {} arguments with
  | .ok reading => reading.request
  | .error error => .error error

/-! ### The environment -/

/-- The variable that says whether outlines are shown if no option does. -/
def showTreeVariable : String := "DACOMP_SHOW_TREE"

/-- The words that mean yes. -/
def trueWords : List String := ["1", "true", "t", "yes", "y", "on"]

/-- The words that mean no.  A value of nothing but blanks means no as well. -/
def falseWords : List String := ["0", "false", "f", "no", "n", "off", ""]

/-- What the value of the variable says.  Blanks around a word and the case of its letters do not
matter; an unset or empty variable says that outlines are not shown. -/
def showTreeDefault : Option String → Except UsageError Bool
  | none | some "" => .ok false
  | some value =>
      let word := String.ofList ((Text.trim value.toList).map Char.toLower)
      if trueWords.contains word then .ok true
      else if falseWords.contains word then .ok false
      else .error (.notBoolean value)

/-- The settings of a session. -/
structure Start where
  shell : Shell
  /-- What is written before each line is read. -/
  prompt : String
deriving DecidableEq

/-- The settings that the options and the value of the variable make up.  The variable counts only
if no option says whether outlines are shown. -/
def resolve (options : Options) (setting : Option String) : Except UsageError Start :=
  let start (showTree : Bool) : Start :=
    { shell := { showTree, color := options.color }, prompt := options.prompt }
  match options.showTree with
  | some showTree => .ok (start showTree)
  | none => (showTreeDefault setting).map start

/-! ### The program -/

/-- How the program ends. -/
inductive Exit where
  | code (code : Nat)
  | fault (fault : Shell.Fault)
deriving DecidableEq

/-- What the program does to the world. -/
structure Outcome where
  exit : Exit
  output : String := ""
  errors : String := ""
deriving DecidableEq

/-- The end of a program that was not used correctly. -/
def misused (error : UsageError) : Outcome :=
  { exit := .code 2, errors := "Error: " ++ error.message ++ "\n" }

/-- A session over all lines of the input. -/
def session (device : Device) (start : Start) (input : String) : Outcome :=
  let lines := (Text.lines input.toList).map String.ofList
  let response := start.shell.run device start.prompt lines
  { exit := (response.fault.map Exit.fault).getD (.code 0), output := response.output }

/-- What the program has to do: to start a session, or else to end with an outcome to which the
input does not matter. -/
def plan (arguments : List String) (setting : Option String) : Except Outcome Start :=
  match request arguments with
  | .error error => .error (misused error)
  | .ok .version => .error { exit := .code 0, output := versionText }
  | .ok .help => .error { exit := .code 0, output := helpText }
  | .ok (.start options) => (resolve options setting).mapError misused

/-- The program: from its arguments, the value of its environment variable and its input to its
output. -/
def run (device : Device) (arguments : List String) (setting : Option String)
    (input : String) : Outcome :=
  match plan arguments setting with
  | .ok start => session device start input
  | .error outcome => outcome

end Calculator.CommandLine
