/-
Terminal control sequences.

A control sequence is the escape character, an opening bracket, any number of parameter characters,
any number of intermediate characters and one final character.  A terminal obeys it instead of
showing it, so it has no place in output that goes anywhere else.

* `Ansi.isParameter`, `Ansi.isIntermediate`, `Ansi.isFinal` — the classes of characters in it;
* `Ansi.afterSequence?` — what follows a control sequence that a text begins with;
* `Ansi.strip` — a text without its control sequences;
* `Ansi.Color`, `Ansi.paint` — a text in a color, with the terminal reset behind it;
* `Ansi.clearScreen` — clears the screen and sends the cursor to the first column of the first row.
-/

set_option relaxedAutoImplicit false
set_option autoImplicit false

namespace Calculator.Text.Ansi

/-! ### Recognising control sequences -/

/-- The character that opens every control sequence. -/
def escapeChar : Char := '\x1b'

/-- A parameter character: a digit or one of `:;<=>?`. -/
def isParameter (c : Char) : Bool :=
  '0' ≤ c && c ≤ '?'

/-- An intermediate character: a space or one of the punctuation marks up to the slash. -/
def isIntermediate (c : Char) : Bool :=
  ' ' ≤ c && c ≤ '/'

/-- A final character: a letter or one of the other characters from the at sign to the tilde. -/
def isFinal (c : Char) : Bool :=
  '@' ≤ c && c ≤ '~'

/-- What follows the control sequence at the beginning of the text, if there is one. -/
def afterSequence? : List Char → Option (List Char)
  | first :: '[' :: rest =>
      if first = escapeChar then
        match (rest.dropWhile isParameter).dropWhile isIntermediate with
        | final :: after => if isFinal final then some after else none
        | [] => none
      else none
  | _ => none

theorem length_afterSequence? {text after : List Char} (h : afterSequence? text = some after) :
    after.length < text.length := by
  unfold afterSequence? at h
  split at h
  · next first rest =>
      split at h
      · split at h
        · next final tail hdrop =>
            split at h
            · obtain rfl := Option.some.inj h
              have hparameters := List.dropWhile_suffix (l := rest) isParameter
              have hintermediates :=
                List.dropWhile_suffix (l := rest.dropWhile isParameter) isIntermediate
              have := (hintermediates.trans hparameters).length_le
              simp only [hdrop, List.length_cons] at this ⊢
              omega
            · simp at h
        · simp at h
      · simp at h
  · simp at h

/-! ### Removing and adding control sequences -/

/-- The text without its control sequences, which are found from left to right. -/
def strip : List Char → List Char
  | [] => []
  | c :: rest =>
      match _h : afterSequence? (c :: rest) with
      | some after => strip after
      | none => c :: strip rest
termination_by text => text.length
decreasing_by
  · exact length_afterSequence? (by assumption)
  · simp

/-- The colors in use: one for what went wrong and one for what explains. -/
inductive Color where
  | red
  | gray
deriving DecidableEq

/-- The control sequence that switches a terminal to the color. -/
def Color.code : Color → String
  | .red => "\x1b[31m"
  | .gray => "\x1b[90m"

/-- The control sequence that undoes all colors. -/
def reset : String := "\x1b[0m"

/-- The text in the color, with the terminal reset behind it. -/
def paint (color : Color) (text : String) : String :=
  color.code ++ text ++ reset

/-- The control sequences that clear the screen and send the cursor home. -/
def clearScreen : String := "\x1b[2J\x1b[1;1H"

end Calculator.Text.Ansi
