/-
Segments of a text.

A text falls apart into segments in one way only: maximal runs of decimal digits, maximal runs of
blanks, and single other characters.  Every segment is read as one token; faults in it are noted,
except that a run of very many digits cannot be read at all.

* `Segment`, `Segment.first` — segments, and the one at the beginning of a non-empty text;
* `Segment.cut` — the segments of a text;
* `Segment.isOverlong`, `TooManyDigits` — the runs of digits that cannot be read;
* `Segment.token`, `Segment.diagnostics` — the token read off a segment, and the faults in it;
* `Segment.flatten_cut` — the segments of a text, put together, are the text.
-/

import Calculator.Diagnostic
import Calculator.Token
import Calculator.Word32

set_option relaxedAutoImplicit false
set_option autoImplicit false

namespace Calculator

/-- A piece of text that is read as one token. -/
structure Segment where
  kind : Kind
  text : List Char
deriving DecidableEq

namespace Segment

/-! ### Cutting a text -/

/-- The characters at the beginning of `rest` that belong to a token of the given kind. -/
def run (kind : Kind) (rest : List Char) : List Char :=
  if kind.isRun then rest.takeWhile (Kind.ofChar · = kind) else []

/-- What is left of `rest` behind these characters. -/
def afterRun (kind : Kind) (rest : List Char) : List Char :=
  if kind.isRun then rest.dropWhile (Kind.ofChar · = kind) else rest

/-- The segment at the beginning of the text `c :: rest`. -/
def first (c : Char) (rest : List Char) : Segment :=
  { kind := Kind.ofChar c, text := c :: run (Kind.ofChar c) rest }

/-- What follows the first segment of the text `c :: rest`. -/
def afterFirst (c : Char) (rest : List Char) : List Char :=
  afterRun (Kind.ofChar c) rest

@[simp] theorem run_append_afterRun (kind : Kind) (rest : List Char) :
    run kind rest ++ afterRun kind rest = rest := by
  by_cases h : kind.isRun = true <;> simp [run, afterRun, h, List.takeWhile_append_dropWhile]

/-- The first segment and what follows it make up the text. -/
theorem first_append_afterFirst (c : Char) (rest : List Char) :
    (first c rest).text ++ afterFirst c rest = c :: rest := by
  simp [first, afterFirst]

theorem length_afterFirst_le (c : Char) (rest : List Char) :
    (afterFirst c rest).length ≤ rest.length := by
  have := congrArg List.length (first_append_afterFirst c rest)
  simp only [first, List.length_append, List.length_cons] at this
  omega

/-- The segments of the text, from left to right. -/
def cut : List Char → List Segment
  | [] => []
  | c :: rest => first c rest :: cut (afterFirst c rest)
termination_by text => text.length
decreasing_by
  have := length_afterFirst_le c rest
  simp only [List.length_cons]
  omega

@[simp] theorem cut_nil : cut [] = [] := by
  rw [cut]

@[simp] theorem cut_cons (c : Char) (rest : List Char) :
    cut (c :: rest) = first c rest :: cut (afterFirst c rest) := by
  rw [cut]

/-- Nothing is lost: the segments, put together, are the text. -/
theorem flatten_cut (text : List Char) : ((cut text).map Segment.text).flatten = text := by
  fun_induction cut text with
  | case1 => rfl
  | case2 c rest ih => rw [List.map_cons, List.flatten_cons, ih, first_append_afterFirst]

/-! ### Reading a segment -/

/-- The number of characters of the segment. -/
def length (segment : Segment) : Nat :=
  segment.text.length

/-- The number of characters of several segments. -/
def totalLength : List Segment → Nat
  | [] => 0
  | segment :: segments => segment.length + totalLength segments

/-- The largest number of digits that can be read, leading zeros included. -/
def maxDigits : Nat := 4300

/-- Is the segment a run of more digits than can be read? -/
def isOverlong (segment : Segment) : Bool :=
  segment.kind = .number && segment.length > maxDigits

/-- The number that a run of digits denotes, or zero if it is outside the signed 32-bit range;
nothing for other segments. -/
def value (segment : Segment) : Option Int :=
  if segment.kind = .number then
    let number : Int := Text.decimalValue segment.text
    -- there is no sign, so only the upper bound matters
    some (if number ≤ Word32.maximum then number else 0)
  else none

/-- The token read off the segment, if it begins at the given offset. -/
def token (segment : Segment) (position : Nat) : Token :=
  { kind := segment.kind, position, text := String.ofList segment.text, value := segment.value }

@[simp] theorem erasePosition_token (segment : Segment) (position : Nat) :
    (segment.token position).erasePosition = segment.token 0 := rfl

/-- The faults in the segment that reading it brings to light. -/
def diagnostics (segment : Segment) : List Diagnostic :=
  match segment.kind with
  | .invalid => [.invalidCharacter (String.ofList segment.text)]
  | .number =>
      if segment.isOverlong || Text.decimalValue segment.text ≤ Word32.maximum then []
      else [.invalidNumber (String.ofList segment.text)]
  | _ => []

/-- The tokens of segments that follow each other from the given offset on. -/
def tokens : List Segment → Nat → List Token
  | [], _ => []
  | segment :: rest, position => segment.token position :: tokens rest (position + segment.length)

end Segment

/-- A run of more digits than can be read. -/
structure TooManyDigits where
  digits : Nat
deriving DecidableEq

/-- The wording of the fault. -/
def TooManyDigits.message (fault : TooManyDigits) : String :=
  "Exceeds the limit (" ++ toString Segment.maxDigits
    ++ " digits) for integer string conversion: value has " ++ toString fault.digits
    ++ " digits; use sys.set_int_max_str_digits() to increase the limit"

end Calculator
