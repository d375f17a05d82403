/-
Lines of a text.

A line feed, a carriage return, and a carriage return with a line feed behind it each end a line.
What stands behind the last line end is a line of its own unless it is empty.

* `lines` — the lines of a text, without their ends.
-/

set_option relaxedAutoImplicit false
set_option autoImplicit false

namespace Calculator.Text

/-- The lines of the text, without the characters that end them. -/
def lines : List Char → List (List Char)
  | [] => []
  | '\r' :: '\n' :: rest => [] :: lines rest
  | '\r' :: rest => [] :: lines rest
  | '\n' :: rest => [] :: lines rest
  | c :: rest =>
      match lines rest with
      | [] => [[c]]
      | line :: more => (c :: line) :: more

end Calculator.Text
