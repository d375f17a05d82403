/-
The lexer.

A lexer goes through a text from segment to segment and reads each as a token.  It never gets
stuck: faults are noted, and even a run of digits too long to be read is left behind.  Several
users may share one lexer; each iterator starts it over once, with its first pull, and from then
on takes whatever token comes next.

* `Lexer` — a text, the offset reached in it, and the diagnostics noted on the way;
* `Lexer.next` — the token at the offset;
* `Lexer.drain` — all tokens of the text, read from its beginning;
* `Lexer.Iterator`, `Lexer.Iterator.pull` — reading the tokens one at a time;
* `tokenize` — the tokens and the diagnostics of a text.
-/

import Calculator.Segment
import Calculator.TokenStream

set_option relaxedAutoImplicit false
set_option autoImplicit false

namespace Calculator

/-- A text that is being read as tokens. -/
structure Lexer where
  text : List Char
  /-- The offset of the first character that has not been read. -/
  position : Nat := 0
  /-- What was noted since the lexer started at the beginning of the text. -/
  diagnostics : DiagnosticLog := {}
deriving DecidableEq

namespace Lexer

/-- A lexer at the beginning of the text. -/
def ofText (text : String) : Lexer :=
  { text := text.toList }

/-- The part of the text that has not been read. -/
def rest (lexer : Lexer) : List Char :=
  lexer.text.drop lexer.position

/-- The next character, or the character zero at the end of the text. -/
def current (lexer : Lexer) : Char :=
  lexer.rest.headD '\x00'

/-- Has anything been noted? -/
def hasDiagnostics (lexer : Lexer) : Bool :=
  !lexer.diagnostics.isEmpty

/-- The lexer, back at the beginning of its text with nothing noted. -/
def reset (lexer : Lexer) : Lexer :=
  { lexer with position := 0, diagnostics := lexer.diagnostics.clear }

/-! ### Single tokens -/

/-- Reads the segment at the offset, or the end mark at the end of the text.  A segment that cannot
be read is left behind all the same. -/
def next (lexer : Lexer) : Except TooManyDigits Token × Lexer :=
  match lexer.rest with
  | [] => (.ok (Token.endAt lexer.position), lexer)
  | c :: rest =>
      let segment := Segment.first c rest
      let after : Lexer :=
        { lexer with
          position := lexer.position + segment.length
          diagnostics := lexer.diagnostics.extend segment.diagnostics }
      if segment.isOverlong then (.error ⟨segment.length⟩, after)
      else (.ok (segment.token lexer.position), after)

/-! ### All tokens -/

/-- Reads the whole text from its beginning, up to a segment that cannot be read. -/
def drain (lexer : Lexer) : Except TooManyDigits TokenStream × Lexer :=
  let segments := Segment.cut lexer.text
  -- the segments before the first one that cannot be read
  let readable := segments.takeWhile (!·.isOverlong)
  let position := Segment.totalLength readable
  let diagnostics := lexer.diagnostics.clear.extend (readable.flatMap Segment.diagnostics)
  match segments.find? Segment.isOverlong with
  | some segment =>
      (.error ⟨segment.length⟩, { lexer with position := position + segment.length, diagnostics })
  | none =>
      (.ok { tokens := (Segment.tokens readable 0).toArray, endPosition := position },
        { lexer with position, diagnostics })

/-! ### Iterators -/

/-- Where an iterator over a lexer stands. -/
inductive Iterator where
  | fresh
  /-- It goes on from wherever the lexer is. -/
  | running
  /-- It has met the end mark or a segment that cannot be read, and yields nothing more. -/
  | exhausted
deriving DecidableEq

/-- What a pull of an iterator yields, and how it leaves the iterator and the lexer. -/
structure Pulled where
  /-- The token, or nothing from an exhausted iterator. -/
  token : Except TooManyDigits (Option Token)
  iterator : Iterator
  lexer : Lexer

namespace Iterator

/-- Reads the next token for an iterator that is running from now on. -/
def advance (lexer : Lexer) : Pulled :=
  match lexer.next with
  | (.ok token, after) =>
      { token := .ok (some token)
        iterator := if token.kind = .endOfFile then exhausted else running
        lexer := after }
  | (.error fault, after) => { token := .error fault, iterator := exhausted, lexer := after }

/-- Pulls the iterator once.  The first pull starts the lexer over. -/
def pull (lexer : Lexer) : Iterator → Pulled
  | fresh => advance lexer.reset
  | running => advance lexer
  | exhausted => { token := .ok none, iterator := exhausted, lexer }

end Iterator

end Lexer

/-! ### Texts -/

/-- The tokens of a text and what was noted while reading them. -/
def tokenize (text : String) : Except TooManyDigits (TokenStream × DiagnosticLog) :=
  match (Lexer.ofText text).drain with
  | (.ok stream, lexer) => .ok (stream, lexer.diagnostics)
  | (.error fault, _) => .error fault

end Calculator
