/-
Where the tokens of a reading come from, and what was noted on the way.

Every token at the leaves of a tree that a rule reads was either consumed or made up, and for every
token made up there is one diagnostic.  A trace is the list of these tokens, from left to right,
beside the list of diagnostics, between two places in the token stream.

* `Parser.complaint` — what is noted about a token in whose place another one was required;
* `Parser.Trace` — traces, and `Parser.Trace.append`, one after the other;
* `Parser.Reads.traced` — **every reading leaves a trace**;
* `Parser.Trace.mem_or_placeholder`, `Parser.Trace.mem_of_isWritten`,
  `Parser.Trace.eq_placeholder` — a token of a trace is one of the stream or a placeholder;
* `Parser.Trace.exists_complaint` — what is noted in a trace;
* `Parser.Trace.span`, `Parser.Trace.filter_isWritten` — which tokens of the stream a trace
  consumes;
* `Parser.Trace.drop_eq_of_clean` — without diagnostics the tokens of the trace are those of the
  stream, none left out and none added;
* `Parser.readAll_cases`, `Parser.readAll_of_clean` — what reading a whole stream comes to.
-/

import Calculator.Proofs.Parser.Reading

set_option relaxedAutoImplicit false
set_option autoImplicit false

namespace Calculator.Parser

/-! ### Traces -/

/-- What is noted if a token of the kind `found` stands where one of the kind `required` should. -/
def complaint (required found : Kind) : Diagnostic :=
  if required = .number ∧ found = .openParenthesis then .nestingTooDeep maxDepth
  else .unexpectedToken required found

/-- `Trace stream start leaves notes stop` says that the tokens in `leaves` come about between the
indices `start` and `stop` of the stream with the diagnostics in `notes`: each of them is the next
token of the stream, or a placeholder that the next token gave cause to complain about. -/
inductive Trace (stream : TokenStream) :
    Nat → List Token → List Diagnostic → Nat → Prop
  | nil {index : Nat} : Trace stream index [] [] index
  | consumed {index stop : Nat} {leaves : List Token} {notes : List Diagnostic} :
      index < stream.tokens.size → Trace stream (index + 1) leaves notes stop →
      Trace stream index (stream.get index :: leaves) notes stop
  | missing {index stop : Nat} {leaves : List Token} {notes : List Diagnostic} {kind : Kind} :
      kind = .number ∨ kind = .closeParenthesis → (stream.get index).kind ≠ kind →
      Trace stream index leaves notes stop →
      Trace stream index (Token.placeholder kind (stream.get index).position :: leaves)
        (complaint kind (stream.get index).kind :: notes) stop

namespace Trace

variable {stream : TokenStream} {start stop : Nat} {leaves : List Token} {notes : List Diagnostic}

/-- A trace goes on with a trace from where it stops. -/
theorem append {last : Nat} {moreLeaves : List Token} {moreNotes : List Diagnostic}
    (h : Trace stream start leaves notes stop)
    (hmore : Trace stream stop moreLeaves moreNotes last) :
    Trace stream start (leaves ++ moreLeaves) (notes ++ moreNotes) last := by
  induction h with
  | nil => exact hmore
  | consumed hindex _ ih => exact .consumed hindex (ih hmore)
  | missing hkind hfound _ ih => exact .missing hkind hfound (ih hmore)

/-- A token of a trace is one of the stream or a placeholder. -/
theorem mem_or_placeholder (h : Trace stream start leaves notes stop) {token : Token}
    (hmem : token ∈ leaves) :
    token ∈ stream.tokens ∨ ∃ kind position, (kind = .number ∨ kind = .closeParenthesis) ∧
      token = Token.placeholder kind position := by
  induction h with
  | nil => cases hmem
  | @consumed index stop leaves notes hindex _ ih =>
      rcases List.mem_cons.1 hmem with rfl | hmem
      · exact .inl (TokenStream.get_mem hindex)
      · exact ih hmem
  | @missing index stop leaves notes kind hkind _ _ ih =>
      rcases List.mem_cons.1 hmem with rfl | hmem
      · exact .inr ⟨kind, _, hkind, rfl⟩
      · exact ih hmem

/-- What is written in a trace is a token of the stream. -/
theorem mem_of_isWritten (h : Trace stream start leaves notes stop) {token : Token}
    (hmem : token ∈ leaves) (hwritten : token.isWritten = true) : token ∈ stream.tokens := by
  rcases h.mem_or_placeholder hmem with hstream | ⟨kind, position, -, rfl⟩
  · exact hstream
  · cases hwritten

/-- If every token of the stream has characters, then what is not written in a trace is a
placeholder. -/
theorem eq_placeholder (h : Trace stream start leaves notes stop)
    (hstream : ∀ token ∈ stream.tokens, token.isWritten = true) {token : Token}
    (hmem : token ∈ leaves) (hmissing : token.isWritten = false) :
    ∃ kind position, (kind = .number ∨ kind = .closeParenthesis) ∧
      token = Token.placeholder kind position := by
  rcases h.mem_or_placeholder hmem with hwritten | hplaceholder
  · rw [hstream token hwritten] at hmissing
    cases hmissing
  · exact hplaceholder

/-- What is noted is that a number or a closing parenthesis is missing. -/
theorem exists_complaint (h : Trace stream start leaves notes stop) {note : Diagnostic}
    (hmem : note ∈ notes) :
    ∃ kind found, (kind = .number ∨ kind = .closeParenthesis) ∧ note = complaint kind found := by
  induction h with
  | nil => cases hmem
  | consumed _ _ ih => exact ih hmem
  | @missing index stop leaves notes kind hkind _ _ ih =>
      rcases List.mem_cons.1 hmem with rfl | hmem
      · exact ⟨kind, _, hkind, rfl⟩
      · exact ih hmem

/-- A trace goes forward, and it never consumes the end mark. -/
theorem span (h : Trace stream start leaves notes stop) :
    start ≤ stop ∧ stop ≤ max start stream.tokens.size := by
  induction h with
  | nil => omega
  | consumed hindex _ ih => omega
  | missing _ _ _ ih => exact ih

/-- If every token of the stream has characters, then the tokens of a trace that have some are those
of the stream between its two ends. -/
theorem filter_isWritten (h : Trace stream start leaves notes stop)
    (hwritten : ∀ token ∈ stream.tokens, token.isWritten = true) :
    leaves.filter Token.isWritten = stream.toList.extract start stop := by
  simp only [List.extract_eq_take_drop]
  induction h with
  | nil => simp
  | @consumed index stop leaves notes hindex htrace ih =>
      obtain ⟨hle, -⟩ := htrace.span
      have hlength : index < stream.toList.length := by
        rw [TokenStream.length_toList, TokenStream.size]
        omega
      have hget : stream.toList[index] = stream.get index := by
        rw [← Option.some.injEq, ← List.getElem?_eq_getElem hlength,
          TokenStream.getElem?_toList (by rwa [TokenStream.length_toList] at hlength)]
      have hcount : stop - index = stop - (index + 1) + 1 := by omega
      rw [List.filter_cons_of_pos (hwritten _ (TokenStream.get_mem hindex)), ih,
        List.drop_eq_getElem_cons hlength, hcount, List.take_succ_cons, hget]
  | missing _ _ _ ih =>
      rw [List.filter_cons_of_neg (by simp), ih]

/-- Without diagnostics the tokens of the trace are those of the stream. -/
theorem drop_eq_of_clean (h : Trace stream start leaves notes stop) (hclean : notes = []) :
    stream.tokens.toList.drop start = leaves ++ stream.tokens.toList.drop stop := by
  induction h with
  | nil => rfl
  | @consumed index stop leaves notes hindex _ ih =>
      have hget : stream.get index = stream.tokens.toList[index] := by
        rw [TokenStream.get, Array.getElem?_eq_getElem hindex, Option.getD_some,
          Array.getElem_toList]
      rw [List.drop_eq_getElem_cons (by simpa using hindex), ih hclean, hget, List.cons_append]
  | missing _ _ _ _ =>
      -- what is made up is noted
      cases hclean

end Trace

/-! ### Traces of readings -/

/-- `Traced parser leaves after` says that the parser goes on to `after` in the same stream, with a
trace that has these leaves and whose diagnostics it adds to those noted before. -/
def Traced (parser : Parser) (leaves : List Token) (after : Parser) : Prop :=
  after.stream = parser.stream ∧
    ∃ notes, Trace parser.stream parser.position leaves notes after.position ∧
      after.diagnostics.toList = parser.diagnostics.toList ++ notes

theorem Traced.append {parser between after : Parser} {leaves moreLeaves : List Token}
    (h : Traced parser leaves between) (hmore : Traced between moreLeaves after) :
    Traced parser (leaves ++ moreLeaves) after := by
  obtain ⟨hstream, notes, htrace, hnotes⟩ := h
  obtain ⟨hmoreStream, moreNotes, hmoreTrace, hmoreNotes⟩ := hmore
  rw [hstream] at hmoreTrace
  refine ⟨hmoreStream.trans hstream, notes ++ moreNotes, htrace.append hmoreTrace, ?_⟩
  rw [hmoreNotes, hnotes, List.append_assoc]

/-- A token that is no end mark leaves a trace when it is consumed. -/
theorem traced_advance {parser : Parser} (h : parser.current.kind ≠ .endOfFile) :
    Traced parser [parser.current] (parser.advance 1) := by
  have hindex : parser.position < parser.stream.tokens.size := by
    have hpos := remaining_pos h
    simp only [remaining] at hpos
    omega
  exact ⟨rfl, [], .consumed hindex .nil, (List.append_nil _).symm⟩

/-- A placeholder leaves a trace together with its diagnostic. -/
theorem traced_report {parser : Parser} {kind : Kind}
    (hkind : kind = .number ∨ kind = .closeParenthesis) (hfound : parser.current.kind ≠ kind) :
    Traced parser [Token.placeholder kind parser.current.position]
      (parser.report (complaint kind parser.current.kind)) :=
  ⟨rfl, [complaint kind parser.current.kind], .missing hkind hfound .nil,
    DiagnosticLog.toList_report _ _⟩

/-- So does what is required, whether it is there or not. -/
theorem traced_expect {parser : Parser} {kind : Kind}
    (hkind : kind = .number ∨ kind = .closeParenthesis)
    (hparenthesis : kind = .number → parser.current.kind ≠ .openParenthesis) :
    Traced parser [(parser.expect kind).1] (parser.expect kind).2 := by
  by_cases hfound : parser.current.kind = kind
  · rw [expect_of_kind hfound]
    refine traced_advance ?_
    rcases hkind with rfl | rfl <;> rw [hfound] <;> decide
  · have hcomplaint : complaint kind parser.current.kind =
        .unexpectedToken kind parser.current.kind :=
      if_neg fun h => hparenthesis h.1 h.2
    rw [expect_of_kind_ne hfound, ← hcomplaint]
    exact traced_report hkind hfound

theorem kind_ne_endOfFile_of_isMultiplicative {kind : Kind} (h : kind.isMultiplicative = true) :
    kind ≠ .endOfFile := by
  rintro rfl
  cases h

theorem kind_ne_endOfFile_of_isAdditive {kind : Kind} (h : kind.isAdditive = true) :
    kind ≠ .endOfFile := by
  rintro rfl
  cases h

/-- Every reading leaves a trace whose tokens are the leaves of the tree. -/
theorem Reads.traced {levels : Nat} {rule : Rule} {parser after : Parser} {node : Node}
    (h : Reads levels rule parser node after) : Traced parser node.leaves after := by
  induction h with
  | number hkind => exact traced_expect (.inl rfl) fun _ => hkind
  | @tooDeep parser hkind =>
      -- a placeholder like any other, only that the complaint has other words
      have hfound : parser.current.kind ≠ .number := by rw [hkind]; decide
      have hcomplaint : complaint .number parser.current.kind = .nestingTooDeep maxDepth :=
        if_pos ⟨rfl, hkind⟩
      have hreport := traced_report (.inl rfl) hfound
      rwa [hcomplaint] at hreport
  | @parenthesized levels parser after inner hkind _ ih =>
      have hopening : Traced parser [parser.current] parser.enter :=
        traced_advance (by rw [hkind]; decide)
      have hinner : Traced parser.enter inner.leaves after.leave := ih
      have hclosing : Traced after.leave [(after.leave.expect .closeParenthesis).1]
          (after.leave.expect .closeParenthesis).2 :=
        traced_expect (.inr rfl) fun h => by cases h
      exact hopening.append (hinner.append hclosing)
  | factor _ ih => exact ih
  | product _ hop _ ihLeft ihRight =>
      have hoperator := traced_advance (kind_ne_endOfFile_of_isMultiplicative hop)
      exact ihLeft.append (hoperator.append ihRight)
  | addition _ _ ih => exact ih
  | sum _ hop _ _ ihLeft ihRight =>
      have hoperator := traced_advance (kind_ne_endOfFile_of_isAdditive hop)
      exact ihLeft.append (hoperator.append ihRight)
  | expression _ _ ih => exact ih

/-! ### Whole streams -/

/-- Reading a whole stream reads an expression, and then either finds the end mark and notes nothing
more, or finds another token and notes that. -/
theorem readAll_cases (parser : Parser) :
    ∃ after notes,
      Reads (maxDepth - parser.depth) .expression parser parser.readAll.1.root after ∧
      Trace parser.stream parser.position parser.readAll.1.root.leaves notes after.position ∧
      ((after.current.kind = .endOfFile ∧ parser.readAll.1.endOfFile = after.current ∧
          parser.readAll.1.diagnostics = parser.diagnostics.toList ++ notes) ∨
        (after.current.kind ≠ .endOfFile ∧
          parser.readAll.1.endOfFile = Token.placeholder .endOfFile after.current.position ∧
          parser.readAll.1.diagnostics = parser.diagnostics.toList ++
            (notes ++ [.unexpectedToken .endOfFile after.current.kind]))) := by
  have hreads := reads_expression (maxDepth - parser.depth) parser
  generalize hresult : expression (maxDepth - parser.depth) parser = result at hreads
  obtain ⟨root, after⟩ := result
  obtain ⟨-, notes, htrace, hnotes⟩ := hreads.traced
  have happly : parser.apply .expression = (root, after) := hresult
  have hread : parser.readAll.1 =
      { root, endOfFile := (after.expect .endOfFile).1
        diagnostics := (after.expect .endOfFile).2.diagnostics.toList } := by
    rw [readAll, happly]
  rw [hread]
  refine ⟨after, notes, hreads, htrace, ?_⟩
  by_cases hend : after.current.kind = .endOfFile
  · left
    rw [expect_of_kind hend]
    exact ⟨hend, rfl, hnotes⟩
  · right
    rw [expect_of_kind_ne hend]
    refine ⟨hend, rfl, ?_⟩
    dsimp only
    rw [report, DiagnosticLog.toList_report, hnotes, List.append_assoc]

/-- What was noted before stays, and comes first. -/
theorem diagnostics_prefix_readAll (parser : Parser) :
    parser.diagnostics.toList <+: parser.readAll.1.diagnostics := by
  obtain ⟨after, notes, -, -, ⟨-, -, hnotes⟩ | ⟨-, -, hnotes⟩⟩ := readAll_cases parser
  · exact ⟨_, hnotes.symm⟩
  · exact ⟨_, hnotes.symm⟩

/-- If reading a whole stream notes nothing, the leaves of the tree are the tokens up to an end
mark. -/
theorem readAll_of_clean {parser : Parser}
    (hclean : parser.readAll.1.diagnostics = parser.diagnostics.toList) :
    ∃ after, Reads (maxDepth - parser.depth) .expression parser parser.readAll.1.root after ∧
      parser.upcoming = parser.readAll.1.root.leaves ++ after.upcoming ∧
      after.current.kind = .endOfFile := by
  obtain ⟨after, notes, hreads, htrace, ⟨hend, -, hnotes⟩ | ⟨-, -, hnotes⟩⟩ :=
    readAll_cases parser
  · rw [hnotes, List.append_right_eq_self] at hclean
    refine ⟨after, hreads, ?_, hend⟩
    rw [upcoming, upcoming, hreads.stream_eq]
    exact htrace.drop_eq_of_clean hclean
  · rw [hnotes, List.append_right_eq_self] at hclean
    cases List.append_ne_nil_of_right_ne_nil notes (List.cons_ne_nil _ _) hclean

end Calculator.Parser
