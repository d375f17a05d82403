/-
The program.

It reads its arguments, its environment and its input, and leaves all decisions to
`CommandLine` and `Shell.turn`.  Each line is answered before the next one is read.

* `nextLine`, `converse` — a session over the lines of the input;
* `main` — the entry point.
-/

import Calculator.CommandLine

set_option relaxedAutoImplicit false
set_option autoImplicit false

namespace Calculator

/-- The next line of the input and the lines that were read with it, or nothing at the end.  One
read may bring several lines, because not only a line feed ends a line; those in `pending` were
brought by earlier reads. -/
def nextLine (pending : List String) : IO (Option (String × List String)) := do
  match pending with
  | line :: more => return some (line, more)
  | [] =>
      let chunk ← (← IO.getStdin).getLine
      match (Text.lines chunk.toList).map String.ofList with
      | [] => return none
      | line :: more => return some (line, more)

/-- Carries on a session, line by line, as long as its turns proceed. -/
partial def converse (device : Device) (prompt : String) (shell : Shell) (pending : List String) :
    IO UInt32 := do
  IO.print (device.write prompt)
  (← IO.getStdout).flush
  match ← nextLine pending with
  | none => return 0
  | some (line, pending) =>
      match shell.turn device line with
      | .leave => return 0
      | .fail output fault =>
          IO.print output
          IO.eprintln fault.message
          return 1
      | .proceed output shell =>
          IO.print output
          converse device prompt shell pending

/-- Writes what a program that does not start a session has to say. -/
def say (outcome : CommandLine.Outcome) : IO UInt32 := do
  IO.print outcome.output
  IO.eprint outcome.errors
  match outcome.exit with
  | .code code => return code.toUInt32
  | .fault fault =>
      IO.eprintln fault.message
      return 1

end Calculator

open Calculator in
/-- The calculator. -/
def main (arguments : List String) : IO UInt32 := do
  let device := if ← (← IO.getStdout).isTty then Device.terminal else .plain
  let setting ← IO.getEnv CommandLine.showTreeVariable
  match CommandLine.plan arguments setting with
  | .ok start => converse device start.prompt start.shell []
  | .error outcome => say outcome
