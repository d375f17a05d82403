/-
The lines of an output.

Whoever takes an output apart into lines may let more characters end a line than the line feed.  All
characters that end a line anywhere are blanks.  Where only line feeds end lines, the number of
lines is the number of line feeds, and it adds up when texts are put together.

* `isLineBreak`, `isBlank_of_isLineBreak` — the characters that end a line;
* `brokenLines`, `brokenLines_append_lineFeed` — the lines of a text if every one of them does;
* `Feeds` — texts in which only line feeds end lines, with their number;
* `Feeds.append`, `Feeds.of_unbroken` — putting such texts together;
* `Feeds.length_brokenLines` — **a text with so many line feeds has so many lines**.
-/

import Calculator.Text.Blank
import Mathlib.Data.List.Basic

set_option relaxedAutoImplicit false
set_option autoImplicit false

namespace Calculator.Text

/-! ### Line ends -/

/-- The characters that end a line: the line feed and the carriage return, the vertical tab and the
form feed, the three larger separators of records, the next-line character, and the line and
paragraph separators. -/
def lineBreaks : List Char :=
  ['\n', '\r', '\x0b', '\x0c', '\x1c', '\x1d', '\x1e', '\x85', '\u2028', '\u2029']

/-- Does the character end a line? -/
def isLineBreak (c : Char) : Bool :=
  lineBreaks.contains c

/-- What ends a line is a blank. -/
theorem isBlank_of_isLineBreak {c : Char} (h : isLineBreak c = true) : isBlank c = true := by
  have hblanks : lineBreaks.all isBlank = true := by decide
  exact List.all_eq_true.1 hblanks c (List.contains_iff_mem.1 h)

theorem not_isLineBreak_of_not_isBlank {c : Char} (h : isBlank c = false) :
    isLineBreak c = false :=
  Bool.eq_false_iff.2 fun hbreak => by simp [isBlank_of_isLineBreak hbreak] at h

/-- The lines of the text, without the characters that end them.  A carriage return and a line feed
behind it end one line only. -/
def brokenLines : List Char → List (List Char)
  | [] => []
  | '\r' :: '\n' :: rest => [] :: brokenLines rest
  | c :: rest =>
      if isLineBreak c then [] :: brokenLines rest
      else
        match brokenLines rest with
        | [] => [[c]]
        | line :: more => (c :: line) :: more

@[simp] theorem brokenLines_lineFeed (rest : List Char) :
    brokenLines ('\n' :: rest) = [] :: brokenLines rest := by
  rw [brokenLines]
  · exact if_pos (by decide)
  · exact fun _ h => absurd h (by decide)

/-- A character that ends no line belongs to the first line. -/
theorem length_brokenLines_cons {c : Char} (h : isLineBreak c = false) {rest : List Char}
    (hrest : brokenLines rest ≠ []) :
    (brokenLines (c :: rest)).length = (brokenLines rest).length := by
  rw [brokenLines]
  · rw [if_neg (by simp [h])]
    obtain ⟨line, more, hlines⟩ := List.exists_cons_of_ne_nil hrest
    simp [hlines]
  · -- the carriage return ends a line
    rintro _ rfl
    exact absurd h (by decide)

/-- What stands in front of a line feed is a line, if nothing in it ends one. -/
theorem brokenLines_append_lineFeed {line : List Char} (h : ∀ c ∈ line, isLineBreak c = false)
    (rest : List Char) : brokenLines (line ++ '\n' :: rest) = line :: brokenLines rest := by
  induction line with
  | nil => exact brokenLines_lineFeed rest
  | cons c line ih =>
      obtain ⟨hc, hline⟩ := List.forall_mem_cons.1 h
      rw [List.cons_append, brokenLines]
      · rw [if_neg (by simp [hc]), ih hline]
      · -- the carriage return ends a line
        rintro _ rfl
        exact absurd hc (by decide)

/-! ### Texts with line feeds -/

/-- `Feeds count text` says that the text has so many line feeds, and that nothing else in it ends a
line. -/
inductive Feeds : Nat → List Char → Prop
  | nil : Feeds 0 []
  | feed {count : Nat} {text : List Char} : Feeds count text → Feeds (count + 1) ('\n' :: text)
  | other {count : Nat} {c : Char} {text : List Char} :
      isLineBreak c = false → Feeds count text → Feeds count (c :: text)

namespace Feeds

variable {count : Nat} {text : List Char}

theorem append {more : Nat} {rest : List Char} (h : Feeds count text) (hrest : Feeds more rest) :
    Feeds (count + more) (text ++ rest) := by
  induction h with
  | nil => rwa [Nat.zero_add]
  | feed _ ih =>
      rw [Nat.add_right_comm]
      exact .feed ih
  | other hother _ ih => exact .other hother ih

/-- A text that stays on one line. -/
theorem of_unbroken (h : text.any isLineBreak = false) : Feeds 0 text := by
  induction text with
  | nil => exact .nil
  | cons c text ih =>
      rw [List.any_cons, Bool.or_eq_false_iff] at h
      exact .other h.1 (ih h.2)

/-- A text with one more line feed behind it has a line for each of its line feeds. -/
theorem length_brokenLines (h : Feeds count text) :
    (brokenLines (text ++ ['\n'])).length = count + 1 := by
  induction h with
  | nil => rw [List.nil_append, brokenLines_lineFeed, brokenLines, List.length_singleton]
  | feed _ ih => rw [List.cons_append, brokenLines_lineFeed, List.length_cons, ih]
  | other hother _ ih =>
      rw [List.cons_append, length_brokenLines_cons hother, ih]
      exact List.ne_nil_of_length_eq_add_one ih

end Feeds

end Calculator.Text
