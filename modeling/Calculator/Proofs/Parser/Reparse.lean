/-
Reading again what was read.

The texts of the tokens in a tree, put together, are a text again.  It may be much shorter than the
text that the tree was read from: whitespace and invalid characters are left out, placeholders have
no characters, and the parser may have stopped early.  Nevertheless it is cut into the same tokens,
since no two numbers in a tree are next to each other, and the tokens are read as the same tree,
since the parser only finds the end mark where it had to stop before.

* `Token.segments`, `Node.text` — the pieces of text that tokens are read from, and the text of a
  tree, which is put together from them;
* `Node.Normal.apart_segments` — **no two of the pieces of a normal tree are one longer run**;
* `Parser.Reads.cut_text`, `Parser.Reads.cutOff` — **the text of a tree has the tokens of the
  tree**;
* `Parser.AsksForEnd` — the messages that ask for the end mark;
* `Parser.Reads.readAll_text` — **reading the text of a tree yields the tree**;
* `parse_text_root` — the text of a tree is parsed as the tree.
-/

import Calculator.Proofs.Lexer.Segmentation
import Calculator.Proofs.Parser.Layout
import Calculator.Proofs.Parser.Placeholders
import Calculator.Proofs.Parser.Shape

set_option relaxedAutoImplicit false
set_option autoImplicit false

namespace Calculator

/-! ### Pieces of text -/

/-- A segment that is no run can stand between any others. -/
theorem Segment.Apart.between {left right : List Segment} {segment : Segment}
    (hleft : Apart left) (hrun : segment.kind.isRun = false) (hright : Apart right) :
    Apart (left ++ segment :: right) := by
  refine List.isChain_append.2 ⟨hleft, List.isChain_cons.2 ⟨fun _ _ _ => hrun, hright⟩, ?_⟩
  intro last _ head hhead hkind
  cases hhead
  rw [hkind, hrun]

namespace Token

/-- The pieces of text that the tokens are read from, as far as they have characters. -/
def segments (tokens : List Token) : List Segment :=
  (tokens.filter isWritten).map segment

@[simp] theorem segments_nil : segments [] = [] := rfl

theorem segments_append (tokens more : List Token) :
    segments (tokens ++ more) = segments tokens ++ segments more := by
  simp [segments]

theorem segments_cons_of_isWritten {token : Token} (h : token.isWritten = true)
    (tokens : List Token) : segments (token :: tokens) = token.segment :: segments tokens := by
  simp [segments, h]

theorem segments_cons_of_not_isWritten {token : Token} (h : token.isWritten = false)
    (tokens : List Token) : segments (token :: tokens) = segments tokens := by
  simp [segments, h]

/-- Tokens without characters do not contribute to a text. -/
theorem flatten_segments (tokens : List Token) :
    ((segments tokens).map Segment.text).flatten =
      ((tokens.map Token.segment).map Segment.text).flatten := by
  induction tokens with
  | nil => rfl
  | cons token tokens ih =>
      rw [List.map_cons, List.map_cons, List.flatten_cons, ← ih]
      cases hwritten : token.isWritten with
      | true => rw [segments_cons_of_isWritten hwritten, List.map_cons, List.flatten_cons]
      | false =>
          have htext : token.text = "" := by simpa [isWritten] using hwritten
          have hnil : token.segment.text = [] := by simp [segment, htext]
          rw [segments_cons_of_not_isWritten hwritten, hnil, List.nil_append]

/-- Behind an operator or an opening parenthesis, which cannot be missing, nothing is joined to what
stands before it. -/
theorem apart_segments_between {left right : List Token} {token : Token}
    (hleft : Segment.Apart (segments left))
    (hkind : token.kind.isAdditive = true ∨ token.kind.isMultiplicative = true ∨
      token.kind = .openParenthesis)
    (hmissing : token.isWritten = false → token.kind = .number ∨ token.kind = .closeParenthesis)
    (hright : Segment.Apart (segments right)) :
    Segment.Apart (segments (left ++ token :: right)) := by
  have hrun : token.kind.isRun = false := by
    cases hcase : token.kind <;> rw [hcase] at hkind <;>
      first | rfl | simp [Kind.isAdditive, Kind.isMultiplicative] at hkind
  have hwritten : token.isWritten = true := by
    refine Bool.of_not_eq_false fun hwritten => ?_
    rcases hmissing hwritten with hcase | hcase <;> rw [hcase] at hkind <;>
      simp [Kind.isAdditive, Kind.isMultiplicative] at hkind
  rw [segments_append, segments_cons_of_isWritten hwritten]
  exact hleft.between hrun hright

end Token

namespace Node

/-- The texts of the tokens of the tree, put together from left to right. -/
def text (node : Node) : String :=
  String.join (node.tokens.map Token.text)

theorem toList_text (node : Node) :
    node.text.toList = ((Token.segments node.leaves).map Segment.text).flatten := by
  rw [text, Token.toList_join_text, tokens_eq_leaves, Token.flatten_segments]

/-- Two segments of a normal tree are never one longer run, if only numbers and closing parentheses
are missing: between two numbers there is always an operator. -/
theorem Normal.apart_segments {levels : Nat} {rule : Rule} {node : Node}
    (h : Normal levels rule node)
    (hmissing : ∀ token ∈ node.leaves, token.isWritten = false →
      token.kind = .number ∨ token.kind = .closeParenthesis) :
    Segment.Apart (Token.segments node.leaves) := by
  induction h with
  | @number levels token hkind =>
      cases hwritten : token.isWritten with
      | true =>
          rw [leaves, Token.segments_cons_of_isWritten hwritten]
          exact .singleton _
      | false =>
          rw [leaves, Token.segments_cons_of_not_isWritten hwritten]
          exact .nil
  | @parenthesized levels opening closing inner hopening _ hclosing ih =>
      simp only [leaves, List.forall_mem_append, List.forall_mem_cons] at hmissing
      obtain ⟨hopeningMissing, hinnerMissing, -⟩ := hmissing
      have hinner := ih hinnerMissing
      have hclosed : Segment.Apart (Token.segments (inner.leaves ++ [closing])) := by
        rw [Token.segments_append]
        cases hwritten : closing.isWritten with
        | true =>
            rw [Token.segments_cons_of_isWritten hwritten]
            exact hinner.between (by rw [Token.segment, hclosing]; rfl) .nil
        | false =>
            rw [Token.segments_cons_of_not_isWritten hwritten, Token.segments_nil, List.append_nil]
            exact hinner
      exact @Token.apart_segments_between [] _ _ .nil (.inr (.inr hopening)) hopeningMissing hclosed
  | factor _ ih => exact ih hmissing
  | product _ hop _ ihLeft ihRight =>
      simp only [leaves, List.forall_mem_append, List.forall_mem_cons] at hmissing
      obtain ⟨hleft, hoperator, hright⟩ := hmissing
      exact Token.apart_segments_between (ihLeft hleft) (.inr (.inl hop)) hoperator (ihRight hright)
  | addition _ ih => exact ih hmissing
  | sum _ hop _ ihLeft ihRight =>
      simp only [leaves, List.forall_mem_append, List.forall_mem_cons] at hmissing
      obtain ⟨hleft, hoperator, hright⟩ := hmissing
      exact Token.apart_segments_between (ihLeft hleft) (.inl hop) hoperator (ihRight hright)
  | expression _ ih => exact ih hmissing

end Node

/-! ### The tokens of the text of a tree -/

namespace Parser

section Reads

variable {levels : Nat} {rule : Rule} {text : List Char} {after : Parser} {node : Node}

/-- What has characters in a tree that is read from a text is a token of the text. -/
theorem Reads.mem_tokens (h : Reads levels rule (start text) node after) {token : Token}
    (hmem : token ∈ node.leaves.filter Token.isWritten) : token ∈ (start text).stream.tokens := by
  obtain ⟨hleaf, hwritten⟩ := List.mem_filter.1 hmem
  obtain ⟨-, notes, htrace, -⟩ := h.traced
  exact htrace.mem_of_isWritten hleaf hwritten

/-- The segments of the tree are some of those of the text, without whitespace and invalid
characters. -/
theorem Reads.mem_cut (h : Reads levels rule (start text) node after) {segment : Segment}
    (hmem : segment ∈ Token.segments node.leaves) :
    segment ∈ Segment.cut text ∧ segment.kind.isTrivia = false := by
  obtain ⟨token, htoken, rfl⟩ := List.mem_map.1 hmem
  have hstream := h.mem_tokens htoken
  refine ⟨?_, not_isTrivia_of_mem_start hstream⟩
  rw [← Segment.map_segment_tokens (Segment.cut text) 0]
  exact List.mem_map_of_mem (mem_tokens_of_mem_start hstream)

/-- The text of a tree that is read from a text is cut into the segments of the tree. -/
theorem Reads.cut_text (h : Reads levels rule (start text) node after) :
    Segment.cut node.text.toList = Token.segments node.leaves := by
  rw [Node.toList_text]
  refine Segment.cut_flatten ?_ (h.normal.apart_segments ?_)
  · exact fun segment hmem => Segment.wellFormed_of_mem_cut (h.mem_cut hmem).1
  · intro token hmem hmissing
    obtain ⟨-, notes, htrace, -⟩ := h.traced
    obtain ⟨kind, position, hkind, rfl⟩ :=
      htrace.eq_placeholder (fun token hmem => isWritten_of_mem_start hmem) hmem hmissing
    exact hkind

theorem Reads.readable_text (h : Reads levels rule (start text) node after)
    (hreadable : Segment.Readable text) : Segment.Readable node.text.toList := by
  intro segment hmem
  rw [h.cut_text] at hmem
  exact hreadable segment (h.mem_cut hmem).1

/-- The parser sees all tokens of the text of the tree. -/
theorem Reads.stream_start_text (h : Reads levels rule (start text) node after) :
    (start node.text.toList).stream = Segment.stream node.text.toList := by
  have hfilter : (Segment.stream node.text.toList).tokens.filter (!·.kind.isTrivia) =
      (Segment.stream node.text.toList).tokens := by
    refine Array.filter_eq_self.2 fun token hmem => ?_
    obtain ⟨segment, hsegment, offset, rfl, -⟩ :=
      Segment.exists_of_mem_tokens (List.mem_toArray.1 hmem)
    rw [h.cut_text] at hsegment
    simpa [Segment.token] using (h.mem_cut hsegment).2
  rw [start, TokenStream.withoutTrivia, hfilter]

/-- But for their offsets, the tokens of the text of the tree are those of the tree. -/
theorem Reads.map_erasePosition (h : Reads levels rule (start text) node after) :
    (Segment.stream node.text.toList).tokens.toList.map Token.erasePosition =
      (node.leaves.filter Token.isWritten).map Token.erasePosition := by
  have htokens : ∀ token ∈ node.leaves.filter Token.isWritten,
      token.segment.token 0 = token.erasePosition := fun token hmem =>
    (Segment.erasePosition_of_mem_tokens (mem_tokens_of_mem_start (h.mem_tokens hmem))).symm
  calc (Segment.stream node.text.toList).tokens.toList.map Token.erasePosition
      = (Segment.cut node.text.toList).map (·.token 0) := Segment.map_erasePosition_tokens _ 0
    _ = (node.leaves.filter Token.isWritten).map (·.segment.token 0) := by
        rw [h.cut_text, Token.segments, List.map_map]
        rfl
    _ = (node.leaves.filter Token.isWritten).map Token.erasePosition :=
        List.map_congr_left htokens

/-- The tokens of the text of the tree are those of the text, up to where the rule stops. -/
theorem Reads.cutOff (h : Reads levels rule (start text) node after) :
    TokenStream.CutOff after.position (start text).stream (start node.text.toList).stream := by
  obtain ⟨-, notes, htrace, -⟩ := h.traced
  have hlimit : after.position ≤ (start text).stream.tokens.size := by
    simpa [start] using htrace.span.2
  refine .of_map_eq hlimit ?_
  rw [h.stream_start_text, h.map_erasePosition,
    htrace.filter_isWritten fun token hmem => isWritten_of_mem_start hmem]
  exact congrArg _ (TokenStream.extract_toList hlimit)

/-- The rule reads the text of the tree to its end, and as the same tree. -/
theorem Reads.again (h : Reads levels rule (start text) node after) :
    ∃ node' after', Reads levels rule (start node.text.toList) node' after' ∧
      node'.erasePositions = node.erasePositions ∧
      after'.position = (start node.text.toList).stream.tokens.size := by
  obtain ⟨node', after', hreads, hnode, hafter⟩ := h.transfer ⟨h.cutOff, rfl⟩ (Nat.le_refl _)
  exact ⟨node', after', hreads, hnode, hafter.position_eq.trans h.cutOff.size_eq.symm⟩

end Reads

/-! ### Messages -/

/-- `AsksForEnd message` says that somewhere in the message the end mark is what was expected. -/
def AsksForEnd (message : String) : Prop :=
  "Expected: <EOFToken>".toList <:+: message.toList

/-- The message about a missing number or closing parenthesis does not ask for the end mark. -/
theorem not_asksForEnd_complaint {kind : Kind} (h : kind = .number ∨ kind = .closeParenthesis)
    (found : Kind) : ¬AsksForEnd (complaint kind found).message := by
  rw [message_complaint, AsksForEnd, wording]
  split
  · decide +kernel
  · -- the parts of the message are decided upon as characters, for all kinds at once
    have hall : ∀ kind ∈ [Kind.number, .closeParenthesis], ∀ found ∈ Kind.all,
        ¬"Expected: <EOFToken>".toList <:+:
          "Error: ".toList ++ ("Unexpected token, Expected: <".toList ++ kind.name.toList ++
            "> Found: <".toList ++ found.name.toList ++ ">".toList) := by
      decide +kernel
    simp only [String.toList_append]
    exact hall kind (by simpa using h) found (Kind.mem_all found)

/-- Neither does the one about a number out of range, which is the only fault of a segment that the
parser sees. -/
theorem not_asksForEnd_of_mem_diagnostics {segment : Segment} {diagnostic : Diagnostic}
    (hsegment : segment.WellFormed) (htrivia : segment.kind.isTrivia = false)
    (hmem : diagnostic ∈ segment.diagnostics) : ¬AsksForEnd diagnostic.message := by
  obtain ⟨hkind, rfl⟩ : segment.kind = .number ∧
      diagnostic = .invalidNumber (String.ofList segment.text) := by
    rcases Segment.cases_of_mem_diagnostics hmem with ⟨hinvalid, -⟩ | hnumber
    · rw [hinvalid] at htrivia
      cases htrivia
    · exact hnumber
  intro hasks
  have hopening : '<' ∈ ("Text " ++ String.ofList segment.text ++ " is not a valid int32").toList :=
    hasks.subset (by decide +kernel)
  simp only [String.toList_append, List.mem_append, String.toList_ofList] at hopening
  rcases hopening with (htext | hdigits) | htext
  · revert htext
    decide +kernel
  · -- no digit is an angle bracket
    have hangle := hsegment.kind_eq '<' hdigits
    rw [hkind] at hangle
    revert hangle
    decide +kernel
  · revert htext
    decide +kernel

/-- So nothing that the lexer reports about the text of a tree asks for the end mark. -/
theorem Reads.not_asksForEnd_of_mem_faults {levels : Nat} {rule : Rule} {text : List Char}
    {after : Parser} {node : Node} (h : Reads levels rule (start text) node after)
    {diagnostic : Diagnostic} (hmem : diagnostic ∈ (Segment.faults node.text.toList).toList) :
    ¬AsksForEnd diagnostic.message := by
  rw [Segment.faults, DiagnosticLog.toList_ofList, h.cut_text, List.mem_flatMap] at hmem
  obtain ⟨segment, hsegment, hdiagnostic⟩ := hmem
  obtain ⟨hcut, htrivia⟩ := h.mem_cut hsegment
  exact not_asksForEnd_of_mem_diagnostics (Segment.wellFormed_of_mem_cut hcut) htrivia hdiagnostic

/-- Reading the whole text of a tree that is read from a text yields the same tree, consumes all
tokens and finds the end mark. -/
theorem Reads.readAll_text {text : List Char} {after : Parser} {node : Node}
    (h : Reads maxDepth .expression (start text) node after) {again : Parsed}
    (hagain : (start node.text.toList).readAll.1 = again) :
    again.root.erasePositions = node.erasePositions ∧
      again.root.leaves.filter Token.isWritten = (start node.text.toList).stream.tokens.toList ∧
      again.endOfFile = Token.endAt node.text.toList.length ∧
      ∀ diagnostic ∈ again.diagnostics, ¬AsksForEnd diagnostic.message := by
  obtain ⟨root, last, hroot, hnode, hposition⟩ := h.again
  obtain ⟨stop, notes, hstop, htrace, hend⟩ := readAll_cases (start node.text.toList)
  rw [hagain] at hstop htrace hend
  -- there is only one reading of the text of the tree
  have hunique : (root, last) = (again.root, stop) :=
    hroot.expression_eq.symm.trans hstop.expression_eq
  obtain ⟨rfl, rfl⟩ := Prod.mk.inj hunique
  have hcurrent : last.current = Token.endAt node.text.toList.length := by
    rw [current, hposition, hroot.stream_eq, TokenStream.get_of_size_le (Nat.le_refl _)]
    rfl
  have hconsumed : again.root.leaves.filter Token.isWritten =
      (start node.text.toList).stream.tokens.toList := by
    rw [htrace.filter_isWritten fun token hmem => isWritten_of_mem_start hmem, hposition]
    exact (TokenStream.extract_toList (Nat.le_refl _)).trans List.take_length
  rcases hend with ⟨-, hfound, hnotes⟩ | ⟨hne, -, -⟩
  · refine ⟨hnode, hconsumed, hfound.trans hcurrent, fun diagnostic hmem => ?_⟩
    rw [hnotes] at hmem
    rcases List.mem_append.1 hmem with hmem | hmem
    · exact h.not_asksForEnd_of_mem_faults hmem
    · obtain ⟨kind, found, hkind, rfl⟩ := htrace.exists_complaint hmem
      exact not_asksForEnd_complaint hkind found
  · rw [hcurrent] at hne
    exact absurd rfl hne

end Parser

/-! ### Main result -/

/-- Parsing the text of a parsed tree yields the same tree again, whether or not something is wrong
with the text that the tree was parsed from.  The text of the tree has the tokens of the tree that
have characters, and no others; all of them are consumed, up to the end mark; and no message asks
for the end mark. -/
theorem parse_text_root (text : String) (hruns : Text.DigitRunsWithin 4300 text.toList) :
    ∃ parsed stream log again, parse text = .ok parsed ∧
      tokenize parsed.root.text = .ok (stream, log) ∧ parse parsed.root.text = .ok again ∧
      stream.tokens.toList.map Token.erasePosition =
        (parsed.root.tokens.filter Token.isWritten).map Token.erasePosition ∧
      again.root.erasePositions = parsed.root.erasePositions ∧
      again.root.tokens.filter Token.isWritten = stream.tokens.toList ∧
      again.endOfFile = Token.endAt parsed.root.text.length ∧
      ∀ diagnostic ∈ again.diagnostics, ¬Parser.AsksForEnd diagnostic.message := by
  have hreadable : Segment.Readable text.toList := fun segment hmem =>
    Segment.not_isOverlong hruns hmem
  obtain ⟨after, -, hreads, -, -⟩ := Parser.readAll_cases (Parser.start text.toList)
  obtain ⟨parsed, hparsed⟩ : ∃ parsed, (Parser.start text.toList).readAll.1 = parsed := ⟨_, rfl⟩
  obtain ⟨again, hagain⟩ : ∃ again, (Parser.start parsed.root.text.toList).readAll.1 = again :=
    ⟨_, rfl⟩
  rw [hparsed] at hreads
  have hreadableText := hreads.readable_text hreadable
  obtain ⟨hroot, hconsumed, hend, hmessages⟩ := hreads.readAll_text hagain
  refine ⟨parsed, _, _, again, hparsed ▸ parse_of_readable hreadable,
    tokenize_of_readable hreadableText, hagain ▸ parse_of_readable hreadableText, ?_, hroot, ?_,
    ?_, hmessages⟩
  · rw [Node.tokens_eq_leaves, hreads.map_erasePosition]
  · rw [Node.tokens_eq_leaves, hconsumed, hreads.stream_start_text]
  · rw [hend, String.length_toList]

/-- A number and a closing parenthesis are missing in `1 + * (2 3`, and the last number is not read.
The text of its tree is `1+*(2`, in which the same tokens are missing and nothing is left over. -/
theorem parse_text_root_unclosed :
    Text.DigitRunsWithin 4300 "1 + * (2 3".toList ∧
      ∃ parsed again, parse "1 + * (2 3" = .ok parsed ∧ parse "1+*(2" = .ok again ∧
        parsed.root.text = "1+*(2" ∧ parsed.endOfFile = Token.placeholder .endOfFile 9 ∧
        again.root.erasePositions = parsed.root.erasePositions ∧
        again.endOfFile = Token.endAt 5 := by
  have hruns : Text.DigitRunsWithin 4300 "1 + * (2 3".toList :=
    Text.digitRunsWithin_of_length_le (by decide)
  obtain ⟨parsed, stream, log, again, hparse, -, hagain, -, hroot, -, hend, -⟩ :=
    parse_text_root "1 + * (2 3" hruns
  have hresult : (parse "1 + * (2 3").map (fun parsed => (parsed.root.text, parsed.endOfFile)) =
      .ok ("1+*(2", Token.placeholder .endOfFile 9) := by
    decide +kernel
  rw [hparse] at hresult
  obtain ⟨htext, hmissing⟩ := Prod.mk.inj (Except.ok.inj hresult)
  rw [htext] at hagain hend
  exact ⟨hruns, parsed, again, hparse, hagain, htext, hmissing, hroot, hend⟩

end Calculator
