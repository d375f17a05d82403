/-
Sessions with a lexer.

In a session one lexer has many users: some ask for the next token, some pull iterators, some drain
the lexer.  They share its offset and its diagnostics.

* `Lexer.Session` — a lexer with the iterators over it;
* `Lexer.Session.Step`, `Lexer.Session.Answer` — what users ask for, and what they get;
* `Lexer.Session.perform` — one step.
-/

import Calculator.Lexer

set_option relaxedAutoImplicit false
set_option autoImplicit false

namespace Calculator.Lexer

/-- A lexer with the iterators over it. -/
structure Session where
  lexer : Lexer
  /-- The iterators, in the order in which they were made. -/
  iterators : Array Iterator := #[]
deriving DecidableEq

namespace Session

/-- What a user can ask for. -/
inductive Step where
  | next
  | current
  | iterate
  /-- A token from the iterator with the given index. -/
  | pull (index : Nat)
  | drain
deriving DecidableEq

/-- What a user gets. -/
inductive Answer where
  | token (token : Token)
  | character (c : Char)
  | iterator (index : Nat)
  | exhausted
  | tokens (stream : TokenStream)
deriving DecidableEq

/-- Performs one step.  Making an iterator changes nothing else. -/
def perform (session : Session) : Step → Except TooManyDigits Answer × Session
  | .next =>
      let (token, lexer) := session.lexer.next
      (token.map .token, { session with lexer })
  | .current => (.ok (.character session.lexer.current), session)
  | .iterate =>
      (.ok (.iterator session.iterators.size),
        { session with iterators := session.iterators.push .fresh })
  | .pull index =>
      let pulled := (session.iterators[index]?.getD .exhausted).pull session.lexer
      let answer := pulled.token.map fun
        | some token => Answer.token token
        | none => .exhausted
      (answer,
        { lexer := pulled.lexer
          iterators := session.iterators.setIfInBounds index pulled.iterator })
  | .drain =>
      let (stream, lexer) := session.lexer.drain
      (stream.map .tokens, { session with lexer })

end Session

end Calculator.Lexer
