/-
Changes to a parser that its rules do not notice.

A rule decides by the kind of the current token and by the number of open parentheses.  It passes
tokens on into the tree, copies the offset of the current token into a placeholder, and adds to the
diagnostics without looking at them.  So if the tokens of a parser are changed in a way that keeps
their kinds, or if more diagnostics stand before its own, then every rule goes through the same
steps as before: it commutes with the change.

* `Parser.Disguise` — a change of parsers with the change of tokens that belongs to it;
* `Parser.Disguise.expect`, `Parser.Disguise.chain`, `Parser.Disguise.primary` — **a step, a loop
  and a rule commute with it**;
* `Parser.Disguise.readAll` — so does reading a whole stream, from any state;
* `Parser.Disguise.withoutPositions` — the offsets of all tokens left out;
* `Parser.Disguise.after` — earlier diagnostics before the parser's own.
-/

import Calculator.Proofs.Parser.Session

set_option relaxedAutoImplicit false
set_option autoImplicit false

namespace Calculator

namespace Parser

/-! ### Disguises -/

/-- A change of parsers that leaves alone all that the rules look at.  It commutes with what they do
to a parser, and the tokens they find are changed by the function `token`, which keeps kinds. -/
structure Disguise where
  state : Parser → Parser
  token : Token → Token
  kind_token : ∀ found, (token found).kind = found.kind
  /-- A placeholder at the offset of a token becomes one at the offset of the changed token. -/
  token_placeholder : ∀ kind found, token (Token.placeholder kind found.position) =
    Token.placeholder kind (token found).position
  current_state : ∀ parser, (state parser).current = token parser.current
  remaining_state : ∀ parser, (state parser).remaining = parser.remaining
  depth_state : ∀ parser, (state parser).depth = parser.depth
  state_advance : ∀ parser count, state (parser.advance count) = (state parser).advance count
  state_enter : ∀ parser, state parser.enter = (state parser).enter
  state_leave : ∀ parser, state parser.leave = (state parser).leave
  state_report : ∀ parser diagnostic,
    state (parser.report diagnostic) = (state parser).report diagnostic

namespace Disguise

variable (disguise : Disguise) {isOperator : Kind → Bool} {operand : Parser → Node × Parser}

theorem kind_current (parser : Parser) :
    (disguise.state parser).current.kind = parser.current.kind := by
  rw [disguise.current_state, disguise.kind_token]

/-- `Unnoticed disguise rule` says that the rule reads the same in a disguised parser: the tree with
its tokens changed, and the same parser afterwards in its disguise. -/
def Unnoticed (rule : Parser → Node × Parser) : Prop :=
  ∀ parser, rule (disguise.state parser) =
    ((rule parser).1.mapTokens disguise.token, disguise.state (rule parser).2)

/-! ### Steps -/

/-- A required token is found or missed as before. -/
theorem expect (kind : Kind) (parser : Parser) :
    (disguise.state parser).expect kind =
      (disguise.token (parser.expect kind).1, disguise.state (parser.expect kind).2) := by
  by_cases h : parser.current.kind = kind
  · rw [expect_of_kind h, expect_of_kind ((disguise.kind_current parser).trans h),
      disguise.current_state, disguise.state_advance]
  · rw [expect_of_kind_ne h, expect_of_kind_ne (by rwa [disguise.kind_current]),
      disguise.kind_current, disguise.current_state, disguise.token_placeholder,
      disguise.state_report]

theorem number : disguise.Unnoticed Parser.number := by
  intro parser
  rw [number_eq, number_eq, disguise.expect, Node.mapTokens]

theorem tooDeep : disguise.Unnoticed Parser.tooDeep := by
  intro parser
  rw [Parser.tooDeep, Parser.tooDeep, disguise.current_state, ← disguise.token_placeholder,
    ← disguise.state_report, Node.mapTokens]

theorem enclosed (h : disguise.Unnoticed operand) :
    disguise.Unnoticed (Parser.enclosed operand) := by
  intro parser
  rw [enclosed_eq, enclosed_eq, ← disguise.state_enter, h, ← disguise.state_leave,
    disguise.expect, disguise.current_state, Node.mapTokens]

/-! ### Loops -/

/-- A loop goes through the same rounds, since each of them finds an operator of the same kind. -/
theorem chain (h : disguise.Unnoticed operand) (count : Nat) (left : Node) (parser : Parser) :
    Parser.chain isOperator operand count (left.mapTokens disguise.token)
        (disguise.state parser) =
      ((Parser.chain isOperator operand count left parser).1.mapTokens disguise.token,
        disguise.state (Parser.chain isOperator operand count left parser).2) := by
  induction count generalizing left parser with
  | zero => rfl
  | succ count ih =>
      cases hop : isOperator parser.current.kind with
      | false =>
          rw [chain_of_not_isOperator hop,
            chain_of_not_isOperator (by rwa [disguise.kind_current])]
      | true =>
          rw [chain_of_isOperator hop, chain_of_isOperator (by rwa [disguise.kind_current]),
            ← disguise.state_advance, h, ← ih, disguise.current_state, Node.mapTokens]

theorem leftAssociative (h : disguise.Unnoticed operand) :
    disguise.Unnoticed (Parser.leftAssociative isOperator operand) := by
  intro parser
  have hoperand := h parser
  rw [Parser.leftAssociative, Parser.leftAssociative, hoperand]
  dsimp only
  rw [disguise.remaining_state, disguise.chain h]

/-! ### Rules -/

theorem primary (levels : Nat) : disguise.Unnoticed (Parser.primary levels) := by
  -- what parentheses enclose is read by the rules of one level less
  induction levels with
  | zero =>
      intro parser
      rw [Parser.primary, Parser.primary, disguise.kind_current]
      by_cases h : parser.current.kind = .openParenthesis
      · rw [if_pos h, if_pos h, disguise.tooDeep]
      · rw [if_neg h, if_neg h, disguise.number]
  | succ levels ih =>
      intro parser
      rw [Parser.primary, Parser.primary, disguise.kind_current]
      by_cases h : parser.current.kind = .openParenthesis
      · rw [if_pos h, if_pos h,
          disguise.enclosed (disguise.leftAssociative (disguise.leftAssociative ih))]
      · rw [if_neg h, if_neg h, disguise.number]

theorem expression (levels : Nat) : disguise.Unnoticed (Parser.expression levels) :=
  disguise.leftAssociative (disguise.leftAssociative (disguise.primary levels))

/-- A whole stream is read as the same tree with its tokens changed, and what is noted in the
meantime is added to the diagnostics of the disguised parser. -/
theorem readAll (parser : Parser) :
    (disguise.state parser).readAll =
      ({ root := parser.readAll.1.root.mapTokens disguise.token
         endOfFile := disguise.token parser.readAll.1.endOfFile
         diagnostics := (disguise.state parser.readAll.2).diagnostics.toList },
        disguise.state parser.readAll.2) := by
  have hexpression := disguise.expression (maxDepth - parser.depth) parser
  rw [readAll_eq, readAll_eq, apply, apply, disguise.depth_state, hexpression]
  dsimp only
  rw [disguise.expect]

end Disguise

end Parser

/-! ### Offsets -/

/-- The stream without the offsets of its tokens. -/
def TokenStream.erasePositions (stream : TokenStream) : TokenStream :=
  { tokens := stream.tokens.map Token.erasePosition, endPosition := 0 }

theorem TokenStream.get_erasePositions (stream : TokenStream) (index : Nat) :
    stream.erasePositions.get index = (stream.get index).erasePosition := by
  rw [get, get, erasePositions, Array.getElem?_map]
  cases stream.tokens[index]? <;> rfl

namespace Parser

/-- The parser without the offsets of its tokens. -/
def erasePositions (parser : Parser) : Parser :=
  { parser with stream := parser.stream.erasePositions }

/-- Offsets are passed on, but no rule looks at them. -/
def Disguise.withoutPositions : Disguise where
  state := erasePositions
  token := Token.erasePosition
  kind_token _ := rfl
  token_placeholder _ _ := rfl
  current_state parser := parser.stream.get_erasePositions parser.position
  remaining_state parser := by simp [remaining, erasePositions, TokenStream.erasePositions]
  depth_state _ := rfl
  state_advance _ _ := rfl
  state_enter _ := rfl
  state_leave _ := rfl
  state_report _ _ := rfl

/-- Without the offsets of the tokens a whole stream is read as the same tree without offsets, and
the same is noted. -/
theorem readAll_erasePositions (parser : Parser) :
    parser.erasePositions.readAll.1 = parser.readAll.1.erasePositions := by
  have hread := congrArg Prod.fst (Disguise.withoutPositions.readAll parser)
  dsimp only [Disguise.withoutPositions] at hread
  rw [hread, Parsed.erasePositions, diagnostics_readAll, Node.erasePositions, erasePositions]

/-! ### Diagnostics -/

/-- The parser with the given diagnostics before its own. -/
def noting (earlier : List Diagnostic) (parser : Parser) : Parser :=
  { parser with diagnostics := .ofList (earlier ++ parser.diagnostics.toList) }

/-- Diagnostics are added to those noted before, and no rule looks at these. -/
def Disguise.after (earlier : List Diagnostic) : Disguise where
  state := noting earlier
  token := id
  kind_token _ := rfl
  token_placeholder _ _ := rfl
  current_state _ := rfl
  remaining_state _ := rfl
  depth_state _ := rfl
  state_advance _ _ := rfl
  state_enter _ := rfl
  state_leave _ := rfl
  state_report parser diagnostic := by
    have hlog : DiagnosticLog.ofList (earlier ++ (parser.report diagnostic).diagnostics.toList) =
        (DiagnosticLog.ofList (earlier ++ parser.diagnostics.toList)).report diagnostic :=
      DiagnosticLog.ext_toList (by simp [report])
    rw [noting, hlog]
    rfl

/-- What was noted before a stream is read stands before what is noted in reading it, and nothing
else depends on it. -/
theorem readAll_noting (earlier : List Diagnostic) (parser : Parser) :
    (parser.noting earlier).readAll.1 =
      { parser.readAll.1 with diagnostics := earlier ++ parser.readAll.1.diagnostics } := by
  have hread := congrArg Prod.fst ((Disguise.after earlier).readAll parser)
  dsimp only [Disguise.after, id] at hread
  rw [hread, Node.mapTokens_id, noting, DiagnosticLog.toList_ofList, ← diagnostics_readAll]

end Parser

end Calculator
