/-
Quoted text.

A text is shown between two delimiters so that a reader sees where it begins and ends.  The
delimiter is an apostrophe, unless the text holds an apostrophe and no double quote.  Inside, the
delimiter and the backslash are escaped by a backslash, tab, line feed and carriage return have
their letters, and every other hidden character is written by its code point in hexadecimal: two
digits below `0x100`, four below `0x10000`, eight from there on.

Which characters are hidden is a parameter of the format.

* `Quoted.delimiter` — the choice of the delimiter;
* `Quoted.escape` — what stands for one character;
* `Quoted.encode` — the quoted form of a text;
* `quote` — the quoted form as a string, by default with the characters of `Text.isHidden` hidden.
-/

import Calculator.Text.Hidden

set_option relaxedAutoImplicit false
set_option autoImplicit false

namespace Calculator.Text

namespace Quoted

/-! ### Hexadecimal digits -/

/-- The last `width` hexadecimal digits of `n`, in lower case, most significant first. -/
def hexDigits : Nat → Nat → List Char
  | 0, _ => []
  | width + 1, n => hexDigits width (n / 16) ++ [Nat.digitChar (n % 16)]

@[simp] theorem length_hexDigits (width n : Nat) : (hexDigits width n).length = width := by
  induction width generalizing n with
  | zero => rfl
  | succ width ih => simp [hexDigits, ih]

/-- The escape of a character by its code point, in the shortest of the three widths. -/
def codePointEscape (c : Char) : List Char :=
  if c.toNat < 0x100 then '\\' :: 'x' :: hexDigits 2 c.toNat
  else if c.toNat < 0x10000 then '\\' :: 'u' :: hexDigits 4 c.toNat
  else '\\' :: 'U' :: hexDigits 8 c.toNat

/-! ### The quoted form -/

/-- The double quote if it saves escapes, otherwise the apostrophe. -/
def delimiter (text : List Char) : Char :=
  if text.contains '\'' && !text.contains '"' then '"' else '\''

/-- What stands for the character `c` between two delimiters `quotes`. -/
def escape (hidden : Char → Bool) (quotes c : Char) : List Char :=
  if c = quotes ∨ c = '\\' then ['\\', c]
  else if c = '\t' then ['\\', 't']
  else if c = '\n' then ['\\', 'n']
  else if c = '\r' then ['\\', 'r']
  else if hidden c then codePointEscape c
  else [c]

/-- The text between delimiters, each character escaped where it has to be. -/
def encode (hidden : Char → Bool) (text : List Char) : List Char :=
  delimiter text :: text.flatMap (escape hidden (delimiter text)) ++ [delimiter text]

end Quoted

/-- The quoted form of a text, with the hidden characters of the Unicode standard unless others are
given. -/
def quote (text : String) (hidden : Char → Bool := isHidden) : String :=
  String.ofList (Quoted.encode hidden text.toList)

end Calculator.Text
