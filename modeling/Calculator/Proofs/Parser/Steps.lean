/-
Steps of a parser, and what goes on inside them.

A parser is asked for one thing after the other, also when all of its tokens are consumed: the end
mark can be consumed again and again, and a rule called there finds it wherever it looks.  This
module shows what every step preserves and hence what any number of steps do.  The count of open
parentheses is zero between steps, but not inside a rule; so the moments inside a rule are described
too, by the calls of other rules that it makes on the way.

* `Parser.performAll`, `Parser.advances_performAll` — any number of steps;
* `Parser.Completes`, `Parser.completes_apply` — a rule ends where its loops find no operator;
* `Parser.Calls`, `Parser.Closes`, `Parser.Visits` — the moments inside a rule;
* `Parser.depthBounded` — **how many parentheses are open at these moments**;
* `Parser.Visits.reaches` — these moments are states of the parser like any other;
* `Parser.apply_of_endToken` — a rule called at the end mark;
* `Parser.perform_eq_error_iff` — which steps fail;
* `Parser.Orderly`, `Parser.performAll_orderly` — all of this for the parsers of a text.
-/

import Calculator.Proofs.Parser.Session

set_option relaxedAutoImplicit false
set_option autoImplicit false

namespace Calculator.Parser

/-! ### One step after the other -/

/-- Performs the steps, from the first to the last. -/
def performAll (parser : Parser) (steps : List Step) : Parser :=
  steps.foldl (fun parser step => (parser.perform step).2) parser

theorem advances_performAll (parser : Parser) (steps : List Step) :
    Advances parser (parser.performAll steps) := by
  induction steps generalizing parser with
  | nil => exact .refl parser
  | cons step steps ih => exact (advances_perform parser step).trans (ih _)

theorem Reaches.performAll {text : String} {parser : Parser} (h : Reaches text parser)
    (steps : List Step) : Reaches text (parser.performAll steps) := by
  induction steps generalizing parser with
  | nil => exact h
  | cons step steps ih => exact ih (h.step step)

/-! ### The ends of rules -/

/-- `Completes levels rule parser node after` says that the rule reads the tree and ends there,
since its loops find no operator. -/
structure Completes (levels : Nat) (rule : Rule) (parser : Parser) (node : Node)
    (after : Parser) : Prop where
  reads : Reads levels rule parser node after
  product : rule ≠ .primary → after.current.kind.isMultiplicative = false
  sum : rule = .addition ∨ rule = .expression → after.current.kind.isAdditive = false

/-- Every rule comes to such an end; no loop stops only because its bound is used up. -/
theorem completes_apply (parser : Parser) (rule : Rule) :
    Completes (maxDepth - parser.depth) rule parser (parser.apply rule).1
      (parser.apply rule).2 := by
  have hreads := reads_apply parser rule
  refine ⟨hreads, ?_, ?_⟩
  · intro hrule
    cases rule with
    | expression => exact hreads.stopsAt.1
    | addition => exact hreads.stopsAt
    | factor => exact (reads_factor _ parser).2
    | primary => exact absurd rfl hrule
  · rintro (rfl | rfl)
    · exact (reads_addition _ parser).2
    · exact hreads.stopsAt.2

/-! ### Inside a rule -/

/-- `Calls parser rule levels inner call` says that, while the parser reads by `rule`, the rule
`inner` is called in the state `call` with `levels` more levels of parentheses allowed. -/
inductive Calls (parser : Parser) (rule : Rule) : (levels : Nat) → Rule → Parser → Prop
  | self : Calls parser rule (maxDepth - parser.depth) rule parser
  | inside {levels : Nat} {call : Parser} :
      Calls parser rule (levels + 1) .primary call → call.current.kind = .openParenthesis →
      Calls parser rule levels .expression call.enter
  | addition {levels : Nat} {call : Parser} :
      Calls parser rule levels .expression call → Calls parser rule levels .addition call
  | summand {levels : Nat} {call : Parser} :
      Calls parser rule levels .addition call → Calls parser rule levels .factor call
  | nextSummand {levels : Nat} {call between : Parser} {left : Node} :
      Calls parser rule levels .addition call → Reads levels .addition call left between →
      between.current.kind.isAdditive = true →
      Calls parser rule levels .factor (between.advance 1)
  | operand {levels : Nat} {call : Parser} :
      Calls parser rule levels .factor call → Calls parser rule levels .primary call
  | nextOperand {levels : Nat} {call between : Parser} {left : Node} :
      Calls parser rule levels .factor call → Reads levels .factor call left between →
      between.current.kind.isMultiplicative = true →
      Calls parser rule levels .primary (between.advance 1)

/-- `Closes parser rule after` says that, while the parser reads by `rule`, an expression in
parentheses has been read up to `after`, where the parenthesis is to be closed. -/
def Closes (parser : Parser) (rule : Rule) (after : Parser) : Prop :=
  ∃ levels call inner, Calls parser rule (levels + 1) .primary call ∧
    call.current.kind = .openParenthesis ∧ Reads levels .expression call.enter inner after

/-- The states that the parser goes through while it reads by `rule`: where a rule is called, where
a loop looks for an operator and where a rule ends, and on both sides of a change of the depth. -/
inductive Visits (parser : Parser) (rule : Rule) : Parser → Prop
  | called {levels : Nat} {inner : Rule} {call : Parser} :
      Calls parser rule levels inner call → Visits parser rule call
  | read {levels : Nat} {inner : Rule} {call after : Parser} {node : Node} :
      Calls parser rule levels inner call → Reads levels inner call node after →
      Visits parser rule after
  | opened {levels : Nat} {call : Parser} :
      Calls parser rule (levels + 1) .primary call → call.current.kind = .openParenthesis →
      Visits parser rule (call.advance 1)
  | closed {after : Parser} : Closes parser rule after → Visits parser rule after.leave

/-- The stream is the same in every rule that is called. -/
theorem Calls.stream_eq {parser call : Parser} {rule inner : Rule} {levels : Nat}
    (h : Calls parser rule levels inner call) : call.stream = parser.stream := by
  induction h with
  | self => rfl
  | inside _ _ ih => exact ih
  | addition _ ih => exact ih
  | summand _ ih => exact ih
  | nextSummand _ hreads _ ih => exact hreads.stream_eq.trans ih
  | operand _ ih => exact ih
  | nextOperand _ hreads _ ih => exact hreads.stream_eq.trans ih

theorem Visits.stream_eq {parser state : Parser} {rule : Rule} (h : Visits parser rule state) :
    state.stream = parser.stream := by
  cases h with
  | called hcall => exact hcall.stream_eq
  | read hcall hreads => exact hreads.stream_eq.trans hcall.stream_eq
  | opened hcall _ => exact hcall.stream_eq
  | closed hcloses =>
      obtain ⟨levels, call, inner, hcall, hkind, hreads⟩ := hcloses
      exact hreads.stream_eq.trans hcall.stream_eq

section Depth

variable {parser : Parser} {rule : Rule}

/-- What is open and what may still be opened make up the limit in every call. -/
theorem Calls.levels_add_depth (hdepth : parser.depth ≤ maxDepth) {levels : Nat} {inner : Rule}
    {call : Parser} (h : Calls parser rule levels inner call) :
    levels + call.depth = maxDepth := by
  induction h with
  | self => exact Nat.sub_add_cancel hdepth
  | @inside levels call _ _ ih =>
      have henter : call.enter.depth = call.depth + 1 := rfl
      omega
  | addition _ ih => exact ih
  | summand _ ih => exact ih
  | nextSummand _ hreads _ ih =>
      rw [advance, hreads.depth_eq]
      exact ih
  | operand _ ih => exact ih
  | nextOperand _ hreads _ ih =>
      rw [advance, hreads.depth_eq]
      exact ih

/-- The parenthesis that is to be closed is counted. -/
theorem Closes.depth_pos {after : Parser} (h : Closes parser rule after) : 0 < after.depth := by
  obtain ⟨levels, call, inner, -, -, hreads⟩ := h
  rw [hreads.depth_eq]
  exact Nat.succ_pos _

theorem Visits.depth_le (hdepth : parser.depth ≤ maxDepth) {state : Parser}
    (h : Visits parser rule state) : state.depth ≤ maxDepth := by
  cases h with
  | called hcall =>
      have hsum := hcall.levels_add_depth hdepth
      omega
  | read hcall hreads =>
      have hsum := hcall.levels_add_depth hdepth
      rw [hreads.depth_eq]
      omega
  | @opened levels call hcall _ =>
      have hsum := hcall.levels_add_depth hdepth
      have hopened : (call.advance 1).depth = call.depth := rfl
      omega
  | @closed after hcloses =>
      obtain ⟨levels, call, inner, hcall, hkind, hreads⟩ := hcloses
      have hsum := (Calls.inside hcall hkind).levels_add_depth hdepth
      have hafter := hreads.depth_eq
      have hclosed : after.leave.depth = after.depth - 1 := rfl
      omega

/-- The depth while a parser reads by a rule: with every call, as many levels are left as the limit
allows; at no moment is the limit exceeded; and no parenthesis is closed that was not opened. -/
structure DepthBounded (parser : Parser) (rule : Rule) : Prop where
  left : ∀ levels inner call, Calls parser rule levels inner call → levels + call.depth = 100
  bounded : ∀ state, Visits parser rule state → state.depth ≤ 100
  opened : ∀ after, Closes parser rule after → 0 < after.depth

theorem depthBounded (hdepth : parser.depth ≤ maxDepth) : DepthBounded parser rule := by
  refine ⟨?_, ?_, ?_⟩
  · intro levels inner call hcall
    exact hcall.levels_add_depth hdepth
  · intro state hvisits
    exact hvisits.depth_le hdepth
  · intro after hcloses
    exact hcloses.depth_pos

end Depth

section States

variable {text : String} {parser : Parser}

/-- A reading leads from one state of a parser of a text to another, since each of its parts is a
step, or opens or closes a parenthesis. -/
theorem Reads.reaches {levels : Nat} {rule : Rule} {after : Parser} {node : Node}
    (hreads : Reads levels rule parser node after) (hlevels : levels + parser.depth = maxDepth)
    (h : Reaches text parser) : Reaches text after := by
  induction hreads with
  | number _ => exact h.step (.expect .number)
  | @tooDeep parser hkind =>
      -- at the limit the rule of primaries, called as a step, does the same
      have hlimit : maxDepth - parser.depth = 0 := by omega
      have hstep : (parser.perform (.rule .primary)).2 = parser.tooDeep.2 := by
        rw [perform, apply, hlimit, primary, if_pos hkind]
      exact hstep ▸ h.step (.rule .primary)
  | @parenthesized levels parser after inner hkind hinner ih =>
      have henter : parser.enter.depth = parser.depth + 1 := rfl
      have hafter : after.depth = parser.depth + 1 := hinner.depth_eq
      have hreaches := ih (by omega) (h.enter hkind (by omega))
      exact (hreaches.leave (by omega)).step (.expect .closeParenthesis)
  | factor _ ih => exact ih hlevels h
  | @product levels parser between after left right hleft _ _ ihLeft ihRight =>
      have hbetween : (between.advance 1).depth = parser.depth := hleft.depth_eq
      exact ihRight (by omega) ((ihLeft hlevels h).step .next)
  | addition _ _ ih => exact ih hlevels h
  | @sum levels parser between after left right hleft _ _ _ ihLeft ihRight =>
      have hbetween : (between.advance 1).depth = parser.depth := hleft.depth_eq
      exact ihRight (by omega) ((ihLeft hlevels h).step .next)
  | expression _ _ ih => exact ih hlevels h

theorem Calls.reaches {rule inner : Rule} {levels : Nat} {call : Parser}
    (hcall : Calls parser rule levels inner call) (hdepth : parser.depth ≤ maxDepth)
    (h : Reaches text parser) : Reaches text call := by
  induction hcall with
  | self => exact h
  | @inside levels call hcall hkind ih =>
      have hsum := hcall.levels_add_depth hdepth
      exact ih.enter hkind (by omega)
  | addition _ ih => exact ih
  | summand _ ih => exact ih
  | nextSummand hcall hreads _ ih =>
      exact (hreads.reaches (hcall.levels_add_depth hdepth) ih).step .next
  | operand _ ih => exact ih
  | nextOperand hcall hreads _ ih =>
      exact (hreads.reaches (hcall.levels_add_depth hdepth) ih).step .next

/-- Every moment inside a rule is a state of a parser of the text, so what holds in all states holds
there, too. -/
theorem Visits.reaches {rule : Rule} {state : Parser} (hvisits : Visits parser rule state)
    (hdepth : parser.depth ≤ maxDepth) (h : Reaches text parser) : Reaches text state := by
  cases hvisits with
  | called hcall => exact hcall.reaches hdepth h
  | read hcall hreads =>
      exact hreads.reaches (hcall.levels_add_depth hdepth) (hcall.reaches hdepth h)
  | opened hcall _ => exact (hcall.reaches hdepth h).step .next
  | closed hcloses =>
      have hpos := hcloses.depth_pos
      obtain ⟨levels, call, inner, hcall, hkind, hreads⟩ := hcloses
      have hinside := Calls.inside hcall hkind
      have hafter := hreads.reaches (hinside.levels_add_depth hdepth) (hinside.reaches hdepth h)
      exact hafter.leave hpos

end States

/-! ### At the end mark -/

theorem leftAssociative_of_not_isOperator {isOperator : Kind → Bool}
    {operand : Parser → Node × Parser} {parser : Parser}
    (h : isOperator (operand parser).2.current.kind = false) :
    leftAssociative isOperator operand parser = operand parser :=
  chain_of_not_isOperator h

theorem messages_report (parser : Parser) (diagnostic : Diagnostic) :
    (parser.report diagnostic).diagnostics.messages =
      parser.diagnostics.messages ++ [diagnostic.message] := by
  simp [report, DiagnosticLog.messages]

/-- From the end mark on every rule misses a number and reads nothing else. -/
theorem apply_of_endToken {parser : Parser} (h : parser.current = parser.stream.endToken)
    (rule : Rule) :
    parser.apply rule =
      (.number (Token.placeholder .number parser.stream.endPosition),
        parser.report (.unexpectedToken .number .endOfFile)) := by
  have hkind : parser.current.kind = .endOfFile := by rw [h]; rfl
  have hprimary : ∀ levels, primary levels parser =
      (.number (Token.placeholder .number parser.stream.endPosition),
        parser.report (.unexpectedToken .number .endOfFile)) := by
    intro levels
    have hnumber : primary levels parser = parser.number := by
      cases levels <;> exact if_neg (by rw [hkind]; decide)
    have hfound : parser.current.kind ≠ .number := by rw [hkind]; decide
    rw [hnumber, number_eq, expect_of_kind_ne hfound, hkind, h]
    rfl
  have hend : (parser.report (.unexpectedToken .number .endOfFile)).current.kind = .endOfFile :=
    hkind
  -- the loops of both rules stop at once, since the end mark is no operator
  have hfactor : ∀ levels, factor levels parser = primary levels parser := by
    intro levels
    exact leftAssociative_of_not_isOperator (by rw [hprimary, hend]; rfl)
  have haddition : ∀ levels, addition levels parser = primary levels parser := by
    intro levels
    rw [← hfactor]
    exact leftAssociative_of_not_isOperator (by rw [hfactor, hprimary, hend]; rfl)
  cases rule with
  | expression => exact (haddition _).trans (hprimary _)
  | addition => exact (haddition _).trans (hprimary _)
  | factor => exact (hfactor _).trans (hprimary _)
  | primary => exact hprimary _

/-! ### Steps that fail -/

/-- Looking at a token fails before the beginning of the stream, where the tokens counted from its
end are used up too. -/
theorem peek_eq_error_iff (parser : Parser) (offset : Int) :
    (∃ fault, parser.peek offset = .error fault) ↔
      (parser.position : Int) + offset < -parser.stream.size := by
  rw [peek]
  cases hindex : (parser.position : Int) + offset with
  | ofNat index => simp
  | negSucc back =>
      by_cases hback : back < parser.stream.size
      · have hinside : ¬Int.negSucc back < -parser.stream.size := by omega
        simp [hback, hinside]
      · have hbefore : Int.negSucc back < -parser.stream.size := by omega
        -- the fault tells whether the index is a number that can be looked up at all
        by_cases hmin : minIndex ≤ .negSucc back
        · simp [hback, hbefore, hmin]
        · simp [hback, hbefore, hmin]

/-- No other step fails. -/
theorem perform_eq_error_iff (parser : Parser) (step : Step) :
    (∃ fault, (parser.perform step).1 = .error fault) ↔
      ∃ offset, step = .peek offset ∧
        (parser.position : Int) + offset < -parser.stream.size := by
  cases step with
  | peek offset =>
      have hpeek : (∃ fault, (parser.perform (.peek offset)).1 = .error fault) ↔
          ∃ fault, parser.peek offset = .error fault := by
        rw [perform]
        cases parser.peek offset <;> simp [Except.map]
      rw [hpeek, peek_eq_error_iff]
      simp
  | current => simp [perform]
  | next => simp [perform]
  | expect kind => simp [perform]
  | rule rule => simp [perform]
  | readAll => simp [perform]

/-- A step that fails changes nothing. -/
theorem perform_of_error {parser : Parser} {step : Step} {fault : PeekFault}
    (h : (parser.perform step).1 = .error fault) : (parser.perform step).2 = parser := by
  obtain ⟨offset, rfl, -⟩ := (perform_eq_error_iff parser step).1 ⟨fault, h⟩
  rfl

/-! ### Parsers of a text -/

theorem Reaches.endPosition_eq {text : String} {parser : Parser} (h : Reaches text parser) :
    parser.stream.endPosition = text.length := by
  rw [h.stream_eq, Parser.start, TokenStream.withoutTrivia, Segment.stream, String.length_toList]

/-- The only end mark of a stream is the last of its tokens. -/
theorem Reaches.toList_stream {text : String} {parser : Parser} (h : Reaches text parser) :
    ∃ before, parser.stream.toList = before ++ [Token.endAt text.length] ∧
      ∀ token ∈ before, token.kind ≠ .endOfFile := by
  refine ⟨parser.stream.tokens.toList, ?_, ?_⟩
  · rw [TokenStream.toList, TokenStream.endToken, h.endPosition_eq]
  · intro token hmem
    exact h.kind_ne_endOfFile (Array.mem_toList_iff.1 hmem)

/-- A rule called at the end of the stream makes up a number, notes that, and does nothing else. -/
theorem Reaches.rule_at_end {text : String} {parser : Parser} (h : Reaches text parser)
    (hend : parser.stream.toList.length - 1 ≤ parser.position) (rule : Rule) :
    ∃ after,
      parser.perform (.rule rule) =
          (.ok (.node (.number (Token.placeholder .number text.length))), after) ∧
        after.position = parser.position ∧
        after.diagnostics.messages = parser.diagnostics.messages ++
          ["Error: Unexpected token, Expected: <NumberToken> Found: <EOFToken>"] := by
  rw [TokenStream.length_toList] at hend
  have hcurrent : parser.current = parser.stream.endToken :=
    TokenStream.get_of_size_le (by omega)
  refine ⟨parser.report (.unexpectedToken .number .endOfFile), ?_, rfl, messages_report parser _⟩
  rw [perform, apply_of_endToken hcurrent rule, h.endPosition_eq]

/-! ### Main result -/

/-- What is true of a parser of a text between its steps, and of any step that comes next, if
`fresh` is the parser at the beginning of the text. -/
structure Orderly (text : String) (fresh parser : Parser) : Prop where
  /-- The tokens never change, and there is one end mark among them, the last token. -/
  tokens : parser.stream = fresh.stream ∧
    ∃ before, parser.stream.toList = before ++ [Token.endAt text.length] ∧
      ∀ token ∈ before, token.kind ≠ .endOfFile
  depth_eq : parser.depth = 0
  inside : ∀ rule, DepthBounded parser rule
  /-- Every moment inside a rule is a state of a parser of the text, too. -/
  reached : ∀ rule state, Visits parser rule state → Reaches text state
  advances : ∀ step, Advances parser (parser.perform step).2
  /-- Every rule ends with a tree. -/
  completes : ∀ rule, ∃ node after,
    parser.perform (.rule rule) = (.ok (.node node), after) ∧ Completes 100 rule parser node after
  /-- So does the reading of a whole stream, with the end mark behind the tree. -/
  completes_readAll : ∃ parsed after,
    parser.perform .readAll = (.ok (.parsed parsed), (after.expect .endOfFile).2) ∧
      Completes 100 .expression parser parsed.root after
  /-- From the end mark on a rule makes up a number, notes that, and does nothing else. -/
  at_end : parser.stream.toList.length - 1 ≤ parser.position → ∀ rule, ∃ after,
    parser.perform (.rule rule) =
        (.ok (.node (.number (Token.placeholder .number text.length))), after) ∧
      after.position = parser.position ∧
      after.diagnostics.messages = parser.diagnostics.messages ++
        ["Error: Unexpected token, Expected: <NumberToken> Found: <EOFToken>"]
  /-- Only looking too far back fails. -/
  fails_iff : ∀ step, (∃ fault, (parser.perform step).1 = .error fault) ↔
    ∃ offset, step = .peek offset ∧
      (parser.position : Int) + offset < -parser.stream.toList.length
  unchanged : ∀ step fault, (parser.perform step).1 = .error fault →
    (parser.perform step).2 = parser

/-- Whatever steps are taken with a parser of a text, in whatever order, they leave it orderly: each
of them ends, and the parser is fit for the next one. -/
theorem performAll_orderly (text : String) (fresh : Parser) (hfresh : ofText text = .ok fresh)
    (steps : List Step) : Orderly text fresh (fresh.performAll steps) := by
  have hreaches := (Reaches.start hfresh).performAll steps
  have hadvances := advances_performAll fresh steps
  have hdepth : (fresh.performAll steps).depth = 0 := by
    rw [hadvances.depth_eq, eq_start_of_ofText hfresh, start]
  have hstream := hadvances.stream_eq
  -- from here on only the last state counts
  generalize fresh.performAll steps = parser at hreaches hdepth hstream
  have hlevels : maxDepth - parser.depth = 100 := by rw [hdepth, maxDepth]
  have hcompletes : ∀ rule,
      Completes 100 rule parser (parser.apply rule).1 (parser.apply rule).2 := by
    intro rule
    rw [← hlevels]
    exact completes_apply parser rule
  refine ⟨⟨hstream, hreaches.toList_stream⟩, hdepth, ?_, ?_, advances_perform parser, ?_, ?_,
    hreaches.rule_at_end, ?_, ?_⟩
  · intro rule
    exact depthBounded (by omega)
  · intro rule state hvisits
    exact hvisits.reaches (by omega) hreaches
  · intro rule
    exact ⟨_, _, rfl, hcompletes rule⟩
  · exact ⟨_, _, by rw [perform, readAll_eq], hcompletes .expression⟩
  · intro step
    rw [TokenStream.length_toList]
    exact perform_eq_error_iff parser step
  · intro step fault hfault
    exact perform_of_error hfault

/-- Behind a factor of `(1-2` and the end mark the parser is orderly, so a rule that is called there
makes up a number at the end of the text and consumes nothing. -/
theorem performAll_orderly_past_end :
    ∃ fresh after, ofText "(1-2" = .ok fresh ∧
      Orderly "(1-2" fresh (fresh.performAll [.rule .factor, .peek (-10), .next]) ∧
      (fresh.performAll [.rule .factor, .peek (-10), .next]).perform (.rule .addition) =
        (.ok (.node (.number (Token.placeholder .number 4))), after) ∧
      after.position = 5 := by
  have hfresh : ofText "(1-2" = .ok (start "(1-2".toList) := by decide +kernel
  have horderly := performAll_orderly _ _ hfresh [.rule .factor, .peek (-10), .next]
  obtain ⟨after, hperform, hposition, -⟩ := horderly.at_end (by decide +kernel) .addition
  exact ⟨_, after, hfresh, horderly, hperform, hposition.trans (by decide +kernel)⟩

end Calculator.Parser
