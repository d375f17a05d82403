/-
Blank characters.

The blanks are the characters that separate tokens without being part of any: the Unicode spaces,
the line and paragraph separators, and the control characters that move the print position or
separate records.

* `blankRanges`, `isBlank` — the class of blanks;
* `trim` — a text without the blanks at its ends;
* `isBlankLine` — does a text hold nothing but blanks?
-/

import Calculator.Text.CharRange

set_option relaxedAutoImplicit false
set_option autoImplicit false

namespace Calculator.Text

/-- The ranges of blank characters, in increasing order. -/
def blankRanges : List CharRange :=
  [⟨0x9, 0xD⟩, ⟨0x1C, 0x20⟩, ⟨0x85, 0x85⟩, ⟨0xA0, 0xA0⟩, ⟨0x1680, 0x1680⟩, ⟨0x2000, 0x200A⟩,
   ⟨0x2028, 0x2029⟩, ⟨0x202F, 0x202F⟩, ⟨0x205F, 0x205F⟩, ⟨0x3000, 0x3000⟩]

/-- Is the character blank? -/
def isBlank (c : Char) : Bool :=
  CharRange.covers blankRanges c.toNat

/-- The ranges of blanks are increasing, so `isBlank` is membership in one of them. -/
theorem increasing_blankRanges : CharRange.Increasing blankRanges := by
  simp [CharRange.Increasing, blankRanges]

/-- The text without the blanks at its beginning and at its end. -/
def trim (text : List Char) : List Char :=
  ((text.dropWhile isBlank).reverse.dropWhile isBlank).reverse

/-- Does the text hold nothing but blanks?  The empty text does. -/
def isBlankLine (text : List Char) : Bool :=
  text.all isBlank

end Calculator.Text
