/-
Placeholders and what is reported about them.

Where a token is missing the parser puts a placeholder into the tree and reports that.  The reports
and the placeholders correspond to each other, one to one and in their order, and from the place of
a placeholder in the tree one can tell which token stood in its way.

* `Parser.wording`, `Parser.message_complaint` — the wording of such a report, and its message;
* `Parser.Accounted` — messages that account for the placeholders among some tokens;
* `Parser.Trace.accounted` — **the notes of a trace account for its placeholders**;
* `Parsed.tokensWithMissingEnd` — the tokens of a tree, and what stands in for the end mark;
* `Parser.placeholders_accounted` — whatever a parser reports accounts for its placeholders.
-/

import Calculator.Proofs.Parser.Session

set_option relaxedAutoImplicit false
set_option autoImplicit false

namespace Calculator

namespace Parser

/-! ### Messages -/

/-- What is reported if a token of the kind `found` stands where one of the kind `required` should:
a number is not looked for behind an opening parenthesis that is nested too deep. -/
def wording (required found : Kind) : String :=
  if required = .number ∧ found = .openParenthesis then
    "Parentheses nested deeper than 100 levels"
  else
    "Unexpected token, Expected: <" ++ required.name ++ "> Found: <" ++ found.name ++ ">"

theorem message_unexpectedToken {required found : Kind}
    (h : ¬(required = .number ∧ found = .openParenthesis)) :
    (Diagnostic.unexpectedToken required found).message =
      "Error: " ++ wording required found := by
  have hbeginning : "Error: Unexpected token, Expected: <" =
      "Error: " ++ "Unexpected token, Expected: <" := by
    decide +kernel
  calc (Diagnostic.unexpectedToken required found).message
      = "Error: Unexpected token, Expected: <" ++ required.name ++ "> Found: <" ++
          found.name ++ ">" := rfl
    _ = "Error: " ++ wording required found := by
        rw [hbeginning, wording, if_neg h]
        simp only [String.append_assoc]

/-- Every message of the parser is such a report, marked as an error. -/
theorem message_complaint (required found : Kind) :
    (complaint required found).message = "Error: " ++ wording required found := by
  by_cases h : required = .number ∧ found = .openParenthesis
  · have hdeep : (Diagnostic.nestingTooDeep maxDepth).message =
        "Error: " ++ "Parentheses nested deeper than 100 levels" := by
      decide +kernel
    rw [complaint, if_pos h, hdeep, wording, if_pos h]
  · rw [complaint, if_neg h, message_unexpectedToken h]

/-! ### Accounts -/

/-- `Accounted stream start tokens messages` says that the messages account for the placeholders
among the tokens, which were read from the index `start` of the stream on.  There is one message for
each placeholder, in the same order.  If `found` is the token of the stream behind as many others as
the placeholder has written tokens before it, or the end mark, then the placeholder has its offset
and no value, and the message says that `found` stood in the way. -/
structure Accounted (stream : TokenStream) (start : Nat) (tokens : List Token)
    (messages : List String) : Prop where
  length_eq : messages.length = tokens.countP (!·.isWritten)
  explained : ∀ (before : List Token) (token : Token) (after : List Token),
    tokens = before ++ token :: after → token.isWritten = false →
    ∃ found,
      stream.toList[min (start + before.countP Token.isWritten) (stream.size - 1)]? = some found ∧
        token.position = found.position ∧ token.value = none ∧
        messages[before.countP (!·.isWritten)]? = some ("Error: " ++ wording token.kind found.kind)

namespace Accounted

variable {stream : TokenStream} {start : Nat} {tokens : List Token} {messages : List String}

theorem nil : Accounted stream start [] [] := by
  refine ⟨rfl, ?_⟩
  intro before token after h
  simp at h

/-- A written token needs no message, and it counts for the placeholders behind it. -/
theorem written {token : Token} (hwritten : token.isWritten = true)
    (h : Accounted stream (start + 1) tokens messages) :
    Accounted stream start (token :: tokens) messages := by
  refine ⟨by simp [h.length_eq, hwritten], ?_⟩
  intro before other after htokens hmissing
  cases before with
  | nil =>
      obtain ⟨rfl, -⟩ := List.cons.inj htokens
      rw [hwritten] at hmissing
      cases hmissing
  | cons first before =>
      obtain ⟨rfl, hrest⟩ := List.cons.inj htokens
      obtain ⟨found, hfound, hother⟩ := h.explained before other after hrest hmissing
      refine ⟨found, ?_, ?_⟩
      · rw [List.countP_cons_of_pos hwritten, Nat.add_comm _ 1, ← Nat.add_assoc]
        exact hfound
      · rw [List.countP_cons_of_neg (by simp [hwritten])]
        exact hother

/-- A placeholder is accounted for by the message about the token in its way. -/
theorem missing {kind : Kind} (h : Accounted stream start tokens messages) :
    Accounted stream start (Token.placeholder kind (stream.get start).position :: tokens)
      (("Error: " ++ wording kind (stream.get start).kind) :: messages) := by
  refine ⟨by simp [h.length_eq], ?_⟩
  intro before other after htokens hmissing
  cases before with
  | nil =>
      obtain ⟨rfl, -⟩ := List.cons.inj htokens
      exact ⟨stream.get start, stream.getElem?_toList_min start, rfl, rfl, rfl⟩
  | cons first before =>
      obtain ⟨rfl, hrest⟩ := List.cons.inj htokens
      obtain ⟨found, hfound, hposition, hvalue, hmessage⟩ :=
        h.explained before other after hrest hmissing
      refine ⟨found, ?_, hposition, hvalue, ?_⟩
      · rw [List.countP_cons_of_neg (by simp)]
        exact hfound
      · rw [List.countP_cons_of_pos (by simp), List.getElem?_cons_succ]
        exact hmessage

end Accounted

/-- The notes of a trace account for its placeholders, and what comes behind the trace may be
accounted for from where it stops. -/
theorem Trace.accounted {stream : TokenStream} {start stop : Nat} {leaves more : List Token}
    {notes : List Diagnostic} {messages : List String}
    (h : Trace stream start leaves notes stop)
    (hwritten : ∀ token ∈ stream.tokens, token.isWritten = true)
    (hmore : Accounted stream stop more messages) :
    Accounted stream start (leaves ++ more) (notes.map Diagnostic.message ++ messages) := by
  induction h with
  | nil => exact hmore
  | consumed hindex _ ih => exact .written (hwritten _ (TokenStream.get_mem hindex)) (ih hmore)
  | missing _ _ _ ih =>
      rw [List.map_cons, message_complaint]
      exact .missing (ih hmore)

end Parser

/-! ### Main result -/

/-- The tokens of the tree, and behind them what stands in for the end mark if that is not the one
at the given offset. -/
def Parsed.tokensWithMissingEnd (parsed : Parsed) (endPosition : Nat) : List Token :=
  parsed.root.tokens ++
    if parsed.endOfFile.position = endPosition then [] else [parsed.endOfFile]

namespace Parser

variable {text : String} {parser : Parser}

/-- The messages of a rule account for the placeholders in its tree. -/
theorem apply_accounted (h : Reaches text parser) (rule : Rule) :
    ∃ messages,
      (parser.apply rule).2.diagnostics.messages = parser.diagnostics.messages ++ messages ∧
        Accounted parser.stream parser.position (parser.apply rule).1.tokens messages := by
  obtain ⟨-, notes, htrace, hnotes⟩ := (reads_apply parser rule).traced
  have haccounted := htrace.accounted (fun token hmem => h.isWritten hmem) .nil
  rw [List.append_nil, List.append_nil] at haccounted
  refine ⟨notes.map Diagnostic.message, ?_, ?_⟩
  · simp only [DiagnosticLog.messages, hnotes, List.map_append]
  · rwa [Node.tokens_eq_leaves]

/-- The messages of reading a whole stream account for the placeholders in the tree, and for the one
behind it. -/
theorem readAll_accounted (h : Reaches text parser) :
    ∃ messages,
      parser.readAll.1.diagnostics.map Diagnostic.message =
          parser.diagnostics.messages ++ messages ∧
        Accounted parser.stream parser.position
          (parser.readAll.1.tokensWithMissingEnd parser.stream.endPosition) messages := by
  have hwritten : ∀ token ∈ parser.stream.tokens, token.isWritten = true :=
    fun token hmem => h.isWritten hmem
  obtain ⟨after, notes, hreads, htrace, hend⟩ := readAll_cases parser
  have hcurrent : after.current = parser.stream.get after.position := by
    rw [current, hreads.stream_eq]
  rw [Parsed.tokensWithMissingEnd, Node.tokens_eq_leaves]
  rcases hend with ⟨hkind, hfound, hnotes⟩ | ⟨hkind, hmissing, hnotes⟩
  · -- the token with the kind of the end mark is the end mark
    have hposition : parser.readAll.1.endOfFile.position = parser.stream.endPosition := by
      rw [hfound, hcurrent] at *
      rcases parser.stream.get_cases after.position with hmem | hget
      · exact absurd hkind (h.kind_ne_endOfFile hmem)
      · rw [hget]
        rfl
    have haccounted := htrace.accounted hwritten .nil
    rw [List.append_nil, List.append_nil] at haccounted
    rw [if_pos hposition, List.append_nil]
    refine ⟨notes.map Diagnostic.message, ?_, haccounted⟩
    rw [hnotes, List.map_append, DiagnosticLog.messages]
  · have hposition : parser.readAll.1.endOfFile.position ≠ parser.stream.endPosition := by
      rw [hmissing, hcurrent]
      rw [hcurrent] at hkind
      rcases parser.stream.get_cases after.position with hmem | hget
      · have hlt := h.position_lt hmem
        exact Int.ne_of_lt hlt
      · rw [hget] at hkind
        exact absurd rfl hkind
    rw [if_neg hposition, hmissing, hcurrent]
    refine ⟨notes.map Diagnostic.message ++
      ["Error: " ++ wording .endOfFile (parser.stream.get after.position).kind], ?_,
      htrace.accounted hwritten (.missing .nil)⟩
    rw [hnotes, hcurrent, List.map_append, List.map_append, DiagnosticLog.messages,
      List.map_singleton, message_unexpectedToken (by simp)]

/-- Whatever was done with a parser before, the messages that a rule or the reading of a whole
stream adds account for the placeholders that it makes up: one for each, in their order, with the
token that stood in the way.  For a text that is parsed from its beginning these messages follow
those of the lexer. -/
theorem placeholders_accounted (text : String) (parser : Parser) (h : Reaches text parser) :
    (∀ rule, ∃ messages,
      (parser.apply rule).2.diagnostics.messages = parser.diagnostics.messages ++ messages ∧
        Accounted parser.stream parser.position (parser.apply rule).1.tokens messages) ∧
      (∃ messages,
        parser.readAll.2.diagnostics.messages = parser.diagnostics.messages ++ messages ∧
          Accounted parser.stream parser.position
            (parser.readAll.1.tokensWithMissingEnd parser.stream.endPosition) messages) ∧
      ∃ stream log parsed messages,
        tokenize text = .ok (stream, log) ∧ parse text = .ok parsed ∧
          parsed.diagnostics.map Diagnostic.message = log.messages ++ messages ∧
          Accounted stream.withoutTrivia 0 (parsed.tokensWithMissingEnd stream.endPosition)
            messages := by
  refine ⟨fun rule => apply_accounted h rule, ?_, ?_⟩
  · have hdiagnostics := congrArg (List.map Diagnostic.message) (diagnostics_readAll parser)
    rw [DiagnosticLog.messages, ← hdiagnostics]
    exact readAll_accounted h
  have hfresh := Reaches.start (ofText_of_readable h.readable)
  obtain ⟨messages, hmessages, haccounted⟩ := readAll_accounted hfresh
  exact ⟨_, _, _, messages, tokenize_of_readable h.readable, parse_of_readable h.readable,
    hmessages, haccounted⟩

/-- Behind the first token of `4*(+2 7` the rule of expressions misses two numbers and a closing
parenthesis. -/
theorem placeholders_accounted_unclosed :
    ∃ parser messages, Reaches "4*(+2 7" parser ∧ parser.position = 1 ∧
      Accounted parser.stream 1 (parser.apply .expression).1.tokens messages ∧
      messages =
        ["Error: Unexpected token, Expected: <NumberToken> Found: <MultiplyToken>",
         "Error: Unexpected token, Expected: <NumberToken> Found: <PlusToken>",
         "Error: Unexpected token, Expected: <CloseParenthesisToken> Found: <NumberToken>"] := by
  have hstart : ofText "4*(+2 7" = .ok (start "4*(+2 7".toList) := by decide +kernel
  have hreaches := Reaches.step .next (.start hstart)
  obtain ⟨hrules, -, -⟩ := placeholders_accounted _ _ hreaches
  obtain ⟨messages, hmessages, haccounted⟩ := hrules .expression
  refine ⟨_, messages, hreaches, by decide +kernel, haccounted, ?_⟩
  have hbefore : ((start "4*(+2 7".toList).perform .next).2.diagnostics.messages = [] := by
    decide +kernel
  rw [hbefore, List.nil_append] at hmessages
  rw [← hmessages]
  decide +kernel

end Parser

end Calculator
