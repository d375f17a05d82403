/-
Cascades of diagnostics.

One fault in a text may make the parser note several things.  What it notes has a fixed shape.
Missing numbers may be noted any number of times, since the parser goes on behind them.  But where
a closing parenthesis is missing, or parentheses are nested too deep, no loop finds an operator any
more: every parenthesis that is open is missed in turn, at the same token, and at last the end
mark is.

* `Kind.terminals`, `TokenStream.Terminal` — the kinds of the tokens that the parser sees;
* `Kind.endsReading` — the kinds at which no rule goes on;
* `Parser.Cascade`, `Parser.Cascade.notes` — the shape of what one reading notes;
* `Parser.Cascade.append`, `Parser.Cascade.close` — how such shapes are put together;
* `Parser.Cascades`, `Parser.Reads.cascades` — **whatever is read, its diagnostics are a cascade**;
* `Parser.Calls.position_eq` — where no rule goes on nothing more is consumed;
* `Parser.Visits.position_eq` — so it is from the first diagnostic of this kind on;
* `Parser.diagnostics_cascade` — the diagnostics of a text.
-/

import Calculator.Proofs.Parser.Steps

set_option relaxedAutoImplicit false
set_option autoImplicit false

namespace Calculator

/-! ### Kinds of tokens -/

namespace Kind

/-- The kinds of the tokens of which the grammar speaks. -/
def terminals : List Kind :=
  [.number, .plus, .minus, .multiply, .divide, .openParenthesis, .closeParenthesis]

/-- A character of the text begins such a token, unless the parser never sees it. -/
theorem ofChar_mem_terminals {c : Char} (h : (ofChar c).isTrivia = false) :
    ofChar c ∈ terminals := by
  rcases ofChar_cases c with ⟨-, hkind⟩ | ⟨-, -, hkind⟩ | ⟨-, -, hsymbol⟩ | ⟨-, -, -, hkind⟩
  · simp [hkind, terminals]
  · rw [hkind] at h
    cases h
  · simp only [symbols, List.mem_cons, Prod.mk.injEq, List.not_mem_nil, or_false] at hsymbol
    rcases hsymbol with ⟨-, h⟩ | ⟨-, h⟩ | ⟨-, h⟩ | ⟨-, h⟩ | ⟨-, h⟩ | ⟨-, h⟩ <;>
      simp [h, terminals]
  · rw [hkind] at h
    cases h

/-- The kinds of what may stand where a number is missing: operators, closing parentheses and the
end mark. -/
def nonOperands : List Kind :=
  [.plus, .minus, .multiply, .divide, .closeParenthesis, .endOfFile]

theorem mem_nonOperands {kind : Kind} (h : kind ∈ terminals ∨ kind = .endOfFile)
    (hnumber : kind ≠ .number) (hopening : kind ≠ .openParenthesis) : kind ∈ nonOperands := by
  rcases h with hmem | rfl
  · simp only [terminals, List.mem_cons, List.not_mem_nil, or_false] at hmem
    rcases hmem with rfl | rfl | rfl | rfl | rfl | rfl | rfl
    · exact absurd rfl hnumber
    · decide
    · decide
    · decide
    · decide
    · exact absurd rfl hopening
    · decide
  · decide

/-- A token of one of these kinds is no operator and closes no parenthesis.  So a rule that ends
before it is the last one that has read anything. -/
def endsReading (kind : Kind) : Prop :=
  kind = .openParenthesis ∨ kind = .number ∨ kind = .endOfFile

namespace endsReading

variable {kind : Kind}

theorem not_isAdditive (h : kind.endsReading) : kind.isAdditive = false := by
  rcases h with rfl | rfl | rfl <;> rfl

theorem not_isMultiplicative (h : kind.endsReading) : kind.isMultiplicative = false := by
  rcases h with rfl | rfl | rfl <;> rfl

theorem ne_closeParenthesis (h : kind.endsReading) : kind ≠ .closeParenthesis := by
  rcases h with rfl | rfl | rfl <;> decide

end endsReading

theorem not_endsReading_of_isAdditive {kind : Kind} (h : kind.isAdditive = true) :
    ¬kind.endsReading := by
  intro hends
  rw [hends.not_isAdditive] at h
  cases h

theorem not_endsReading_of_isMultiplicative {kind : Kind} (h : kind.isMultiplicative = true) :
    ¬kind.endsReading := by
  intro hends
  rw [hends.not_isMultiplicative] at h
  cases h

end Kind

/-- `Terminal stream` says that the tokens of the stream are of the kinds that the grammar knows. -/
def TokenStream.Terminal (stream : TokenStream) : Prop :=
  ∀ token ∈ stream.tokens, token.kind ∈ Kind.terminals

/-- Is it noted that a closing parenthesis is missing, or that parentheses are nested too deep? -/
def Diagnostic.endsReading : Diagnostic → Prop
  | unexpectedToken expected _ => expected = .closeParenthesis
  | nestingTooDeep _ => True
  | _ => False

namespace Parser

theorem terminal_start (text : List Char) : (start text).stream.Terminal := by
  intro token hmem
  obtain ⟨c, -, hkind⟩ := Segment.exists_kind_of_mem_tokens (mem_tokens_of_mem_start hmem)
  have htrivia := not_isTrivia_of_mem_start hmem
  rw [← hkind] at htrivia ⊢
  exact Kind.ofChar_mem_terminals htrivia

/-- The current token is of such a kind, or it is the end mark. -/
theorem kind_current_cases {parser : Parser} (h : parser.stream.Terminal) :
    parser.current.kind ∈ Kind.terminals ∨ parser.current.kind = .endOfFile := by
  rcases parser.stream.get_cases parser.position with hmem | hget
  · exact .inl (h _ hmem)
  · exact .inr (by rw [current, hget]; rfl)

/-! ### Cascades -/

/-- What a reading notes, if the token behind it is of the kind `last` and `levels` more levels of
parentheses were allowed in it. -/
structure Cascade (levels : Nat) (last : Kind) where
  /-- The kinds of the tokens that stood in the place of a number. -/
  missing : List Kind
  /-- Was a parenthesis not followed because of the limit? -/
  tooDeep : Bool
  /-- How many parentheses were not closed? -/
  unclosed : Nat
  missing_kind : ∀ kind ∈ missing, kind ∈ Kind.nonOperands
  unclosed_le : unclosed ≤ levels
  last_of_unclosed : 0 < unclosed → last.endsReading
  of_tooDeep : tooDeep = true → last = .openParenthesis ∧ unclosed = levels
  of_missing_end : ∀ before after, missing = before ++ .endOfFile :: after →
    after = [] ∧ last = .endOfFile ∧ tooDeep = false

namespace Cascade

variable {levels more : Nat} {last next : Kind}

/-- The diagnostics of the cascade, in their order. -/
def notes (cascade : Cascade levels last) : List Diagnostic :=
  cascade.missing.map (.unexpectedToken .number) ++
    ((if cascade.tooDeep then [.nestingTooDeep maxDepth] else []) ++
      List.replicate cascade.unclosed (.unexpectedToken .closeParenthesis last))

/-- Nothing is noted. -/
def empty (levels : Nat) (last : Kind) : Cascade levels last where
  missing := []
  tooDeep := false
  unclosed := 0
  missing_kind := by simp
  unclosed_le := Nat.zero_le _
  last_of_unclosed := by simp
  of_tooDeep := by simp
  of_missing_end := by simp

/-- A number is missing where the given token stands. -/
def missingNumber (levels : Nat) (last : Kind) (h : last ∈ Kind.nonOperands) :
    Cascade levels last where
  missing := [last]
  tooDeep := false
  unclosed := 0
  missing_kind := by simpa using h
  unclosed_le := Nat.zero_le _
  last_of_unclosed := by simp
  of_tooDeep := by simp
  of_missing_end := by
    intro before after hlast
    cases before with
    | nil =>
        obtain ⟨rfl, rfl⟩ := List.cons.inj hlast
        exact ⟨rfl, rfl, rfl⟩
    | cons kind before => simp at hlast

/-- A parenthesis is not followed because no level is left. -/
def limit : Cascade 0 .openParenthesis where
  missing := []
  tooDeep := true
  unclosed := 0
  missing_kind := by simp
  unclosed_le := Nat.le_refl _
  last_of_unclosed := by simp
  of_tooDeep := by simp
  of_missing_end := by simp

/-- One more parenthesis, around what was read, is not closed. -/
def close (cascade : Cascade levels last) (hlast : last.endsReading) :
    Cascade (levels + 1) last where
  missing := cascade.missing
  tooDeep := cascade.tooDeep
  unclosed := cascade.unclosed + 1
  missing_kind := cascade.missing_kind
  unclosed_le := Nat.succ_le_succ cascade.unclosed_le
  last_of_unclosed := fun _ => hlast
  of_tooDeep := fun h => ⟨(cascade.of_tooDeep h).1, by rw [(cascade.of_tooDeep h).2]⟩
  of_missing_end := cascade.of_missing_end

/-- Where reading goes on, nothing but missing numbers was noted, and none at the end mark. -/
theorem clear_of_last (cascade : Cascade levels last) (hlast : ¬last.endsReading) :
    cascade.tooDeep = false ∧ cascade.unclosed = 0 ∧ .endOfFile ∉ cascade.missing := by
  refine ⟨?_, ?_, ?_⟩
  · refine Bool.eq_false_iff.2 fun h => hlast ?_
    exact .inl (cascade.of_tooDeep h).1
  · exact Nat.eq_zero_of_not_pos fun h => hlast (cascade.last_of_unclosed h)
  · intro hmem
    obtain ⟨before, after, hmissing⟩ := List.append_of_mem hmem
    exact hlast (.inr (.inr (cascade.of_missing_end before after hmissing).2.1))

/-- Two cascades, if reading goes on behind the first one. -/
def append (cascade : Cascade levels last) (hlast : ¬last.endsReading)
    (other : Cascade more next) : Cascade more next where
  missing := cascade.missing ++ other.missing
  tooDeep := other.tooDeep
  unclosed := other.unclosed
  missing_kind := by
    intro kind hmem
    rcases List.mem_append.1 hmem with hmem | hmem
    · exact cascade.missing_kind kind hmem
    · exact other.missing_kind kind hmem
  unclosed_le := other.unclosed_le
  last_of_unclosed := other.last_of_unclosed
  of_tooDeep := other.of_tooDeep
  of_missing_end := by
    intro before after hmissing
    -- the end mark is not among the kinds in the first part
    rcases List.append_eq_append_iff.1 hmissing with ⟨rest, rfl, hother⟩ | ⟨rest, hfirst, hafter⟩
    · exact other.of_missing_end rest after hother
    · have hend := (cascade.clear_of_last hlast).2.2
      cases rest with
      | nil => exact other.of_missing_end [] after (by simpa using hafter.symm)
      | cons kind rest =>
          obtain ⟨rfl, -⟩ := List.cons.inj hafter
          exact absurd (hfirst ▸ by simp) hend

@[simp] theorem notes_empty : (empty levels last).notes = [] := rfl

@[simp] theorem notes_missingNumber (h : last ∈ Kind.nonOperands) :
    (missingNumber levels last h).notes = [.unexpectedToken .number last] := rfl

@[simp] theorem notes_limit : limit.notes = [.nestingTooDeep maxDepth] := rfl

theorem notes_close (cascade : Cascade levels last) (hlast : last.endsReading) :
    (cascade.close hlast).notes =
      cascade.notes ++ [.unexpectedToken .closeParenthesis last] := by
  calc (cascade.close hlast).notes
      = cascade.missing.map (.unexpectedToken .number) ++
          ((if cascade.tooDeep then [.nestingTooDeep maxDepth] else []) ++
            List.replicate (cascade.unclosed + 1) (.unexpectedToken .closeParenthesis last)) := rfl
    _ = cascade.notes ++ [.unexpectedToken .closeParenthesis last] := by
        rw [notes, List.replicate_succ']
        simp only [List.append_assoc]

theorem notes_append (cascade : Cascade levels last) (hlast : ¬last.endsReading)
    (other : Cascade more next) :
    (cascade.append hlast other).notes = cascade.notes ++ other.notes := by
  obtain ⟨htooDeep, hunclosed, -⟩ := cascade.clear_of_last hlast
  have hfirst : cascade.notes = cascade.missing.map (.unexpectedToken .number) := by
    simp [notes, htooDeep, hunclosed]
  calc (cascade.append hlast other).notes
      = (cascade.missing ++ other.missing).map (.unexpectedToken .number) ++
          ((if other.tooDeep then [.nestingTooDeep maxDepth] else []) ++
            List.replicate other.unclosed (.unexpectedToken .closeParenthesis next)) := rfl
    _ = cascade.notes ++ other.notes := by
        rw [hfirst, List.map_append, List.append_assoc, ← notes]

/-- If something is noted after which no rule goes on, the token at which it was noted is still
there. -/
theorem last_of_endsReading (cascade : Cascade levels last) {note : Diagnostic}
    (hmem : note ∈ cascade.notes) (hnote : note.endsReading) : last.endsReading := by
  by_contra hlast
  obtain ⟨htooDeep, hunclosed, -⟩ := cascade.clear_of_last hlast
  simp only [notes, htooDeep, hunclosed, Bool.false_eq_true, ↓reduceIte, List.replicate_zero,
    List.append_nil, List.mem_map] at hmem
  obtain ⟨kind, -, rfl⟩ := hmem
  cases hnote

end Cascade

/-! ### Cascades of readings -/

/-- `Cascades levels parser after` says that a cascade, up to the token before which `after` stands,
was noted between the two states. -/
def Cascades (levels : Nat) (parser after : Parser) : Prop :=
  ∃ cascade : Cascade levels after.current.kind,
    after.diagnostics.toList = parser.diagnostics.toList ++ cascade.notes

namespace Cascades

variable {levels more : Nat} {parser between after : Parser}

theorem of_diagnostics_eq (h : after.diagnostics = parser.diagnostics) :
    Cascades levels parser after :=
  ⟨.empty _ _, by rw [Cascade.notes_empty, List.append_nil, h]⟩

theorem missingNumber (h : parser.current.kind ∈ Kind.nonOperands) :
    Cascades levels parser (parser.report (.unexpectedToken .number parser.current.kind)) :=
  ⟨.missingNumber levels parser.current.kind h, DiagnosticLog.toList_report _ _⟩

theorem tooDeep (h : parser.current.kind = .openParenthesis) :
    Cascades 0 parser parser.tooDeep.2 := by
  have hlast : parser.tooDeep.2.current.kind = .openParenthesis := h
  rw [Cascades, hlast]
  exact ⟨.limit, DiagnosticLog.toList_report _ _⟩

/-- A reading that goes on with the current token may be followed by another one. -/
theorem append (h : Cascades levels parser between) (hlast : ¬between.current.kind.endsReading)
    (hmore : Cascades more (between.advance 1) after) : Cascades more parser after := by
  obtain ⟨cascade, hnotes⟩ := h
  obtain ⟨other, hother⟩ := hmore
  refine ⟨cascade.append hlast other, ?_⟩
  calc after.diagnostics.toList
      = between.diagnostics.toList ++ other.notes := hother
    _ = parser.diagnostics.toList ++ (cascade.append hlast other).notes := by
        rw [hnotes, Cascade.notes_append, List.append_assoc]

theorem close (h : Cascades levels parser after) (hlast : after.current.kind.endsReading) :
    Cascades (levels + 1) parser
      (after.report (.unexpectedToken .closeParenthesis after.current.kind)) := by
  obtain ⟨cascade, hnotes⟩ := h
  have hreport := DiagnosticLog.toList_report after.diagnostics
    (.unexpectedToken .closeParenthesis after.current.kind)
  refine ⟨cascade.close hlast, hreport.trans ?_⟩
  rw [hnotes, List.append_assoc]
  exact congrArg _ (cascade.notes_close hlast).symm

end Cascades

/-- The rule of expressions stops before a closing parenthesis, or where no rule goes on. -/
theorem Reads.closeParenthesis_or_endsReading {levels : Nat} {parser after : Parser} {node : Node}
    (h : Reads levels .expression parser node after) (hstream : parser.stream.Terminal) :
    after.current.kind = .closeParenthesis ∨ after.current.kind.endsReading := by
  obtain ⟨hproduct, hsum⟩ := h.stopsAt
  rcases kind_current_cases (h.stream_eq ▸ hstream : after.stream.Terminal) with hmem | hend
  · generalize after.current.kind = kind at hmem hproduct hsum
    simp only [Kind.terminals, List.mem_cons, List.not_mem_nil, or_false] at hmem
    rcases hmem with rfl | rfl | rfl | rfl | rfl | rfl | rfl
    · exact .inr (.inr (.inl rfl))
    · cases hsum
    · cases hsum
    · cases hproduct
    · cases hproduct
    · exact .inr (.inl rfl)
    · exact .inl rfl
  · exact .inr (.inr (.inr hend))

/-- Whatever a rule reads, what it notes is a cascade. -/
theorem Reads.cascades {levels : Nat} {rule : Rule} {parser after : Parser} {node : Node}
    (h : Reads levels rule parser node after) (hstream : parser.stream.Terminal) :
    Cascades levels parser after := by
  induction h with
  | @number levels parser hkind =>
      by_cases hnumber : parser.current.kind = .number
      · rw [expect_of_kind hnumber]
        exact .of_diagnostics_eq rfl
      · -- what stands in its place is neither a number nor an opening parenthesis
        have hfound := Kind.mem_nonOperands (kind_current_cases hstream) hnumber hkind
        rw [expect_of_kind_ne hnumber]
        exact .missingNumber hfound
  | tooDeep hkind => exact .tooDeep hkind
  | @parenthesized levels parser after inner _ hinner ih =>
      have hcascades : Cascades levels parser after.leave := ih hstream
      have hstop : after.leave.current.kind = .closeParenthesis ∨
          after.leave.current.kind.endsReading := hinner.closeParenthesis_or_endsReading hstream
      rcases hstop with hclosed | hlast
      · rw [expect_of_kind hclosed]
        exact hcascades.append (fun hlast => hlast.ne_closeParenthesis hclosed)
          (.of_diagnostics_eq rfl)
      · rw [expect_of_kind_ne hlast.ne_closeParenthesis]
        exact hcascades.close hlast
  | factor _ ih => exact ih hstream
  | product hleft hop _ ihLeft ihRight =>
      have hright := ihRight (hleft.stream_eq ▸ hstream)
      exact (ihLeft hstream).append (Kind.not_endsReading_of_isMultiplicative hop) hright
  | addition _ _ ih => exact ih hstream
  | sum hleft hop _ _ ihLeft ihRight =>
      have hright := ihRight (hleft.stream_eq ▸ hstream)
      exact (ihLeft hstream).append (Kind.not_endsReading_of_isAdditive hop) hright
  | expression _ _ ih => exact ih hstream

/-! ### The end of reading -/

/-- A rule that comes to its end has read what it computes. -/
theorem Completes.apply_eq {rule : Rule} {parser after : Parser} {node : Node}
    (h : Completes (maxDepth - parser.depth) rule parser node after) :
    parser.apply rule = (node, after) := by
  have hcomputes := h.reads.computes
  cases rule with
  | expression => exact hcomputes
  | addition =>
      rw [Computes, chain_of_not_isOperator (h.sum (.inl rfl))] at hcomputes
      exact hcomputes
  | factor =>
      rw [Computes, chain_of_not_isOperator (h.product (by decide))] at hcomputes
      exact hcomputes
  | primary => exact hcomputes

/-- What a rule has read is complete where no rule goes on. -/
theorem Reads.completes {levels : Nat} {rule : Rule} {parser after : Parser} {node : Node}
    (h : Reads levels rule parser node after) (hlast : after.current.kind.endsReading) :
    Completes levels rule parser node after :=
  ⟨h, fun _ => hlast.not_isMultiplicative, fun _ => hlast.not_isAdditive⟩

section Inside

variable {parser : Parser} {rule inner : Rule} {levels : Nat} {call after : Parser} {node : Node}

/-- If a rule inside another one ends where no rule goes on, then the other one ends there, too. -/
theorem Calls.position_eq (hcall : Calls parser rule levels inner call)
    (h : Reads levels inner call node after) (hlast : after.current.kind.endsReading) :
    after.position = (parser.apply rule).2.position := by
  -- from a rule to the one that calls it, which ends at the same token
  induction hcall generalizing node after with
  | self => rw [(h.completes hlast).apply_eq]
  | @inside levels call _ hkind ih =>
      have hexpect : after.leave.expect .closeParenthesis =
          (Token.placeholder .closeParenthesis after.current.position,
            after.leave.report (.unexpectedToken .closeParenthesis after.current.kind)) :=
        expect_of_kind_ne hlast.ne_closeParenthesis
      have hprimary := Reads.parenthesized hkind h
      rw [hexpect] at hprimary
      have hposition := ih hprimary hlast
      exact hposition
  | addition _ ih => exact ih (.expression h hlast.not_isAdditive) hlast
  | summand _ ih => exact ih (.addition h hlast.not_isMultiplicative) hlast
  | nextSummand _ hreads hop ih => exact ih (.sum hreads hop h hlast.not_isMultiplicative) hlast
  | operand _ ih => exact ih (.factor h) hlast
  | nextOperand _ hreads hop ih => exact ih (.product hreads hop h) hlast

/-- `Clear parser` says that nothing has been noted that ends the reading of a text. -/
def Clear (parser : Parser) : Prop :=
  ∀ note ∈ parser.diagnostics.toList, ¬note.endsReading

/-- A reading notes nothing of this kind unless the token behind it ends the reading. -/
theorem Reads.clear (h : Reads levels inner call node after) (hstream : call.stream.Terminal)
    (hclear : Clear call) (hlast : ¬after.current.kind.endsReading) : Clear after := by
  obtain ⟨cascade, hnotes⟩ := h.cascades hstream
  intro note hmem hnote
  rw [hnotes] at hmem
  rcases List.mem_append.1 hmem with hmem | hmem
  · exact hclear note hmem hnote
  · exact hlast (cascade.last_of_endsReading hmem hnote)

/-- No rule is called any more once something of this kind was noted. -/
theorem Calls.clear (hcall : Calls parser rule levels inner call)
    (hstream : parser.stream.Terminal) (hclear : Clear parser) :
    Clear call := by
  induction hcall with
  | self => exact hclear
  | inside _ _ ih => exact ih
  | addition _ ih => exact ih
  | summand _ ih => exact ih
  | nextSummand hcall hreads hop ih =>
      exact hreads.clear (hcall.stream_eq ▸ hstream) ih (Kind.not_endsReading_of_isAdditive hop)
  | operand _ ih => exact ih
  | nextOperand hcall hreads hop ih =>
      exact hreads.clear (hcall.stream_eq ▸ hstream) ih
        (Kind.not_endsReading_of_isMultiplicative hop)

/-- From the moment on at which something of this kind is noted, nothing more is consumed. -/
theorem Visits.position_eq {state : Parser} (hvisits : Visits parser rule state)
    (hstream : parser.stream.Terminal) (hclear : Clear parser) (hstate : ¬Clear state) :
    state.position = (parser.apply rule).2.position := by
  cases hvisits with
  | called hcall => exact absurd (hcall.clear hstream hclear) hstate
  | read hcall hreads =>
      by_cases hlast : state.current.kind.endsReading
      · exact hcall.position_eq hreads hlast
      · have hcallClear := hcall.clear hstream hclear
        exact absurd (hreads.clear (hcall.stream_eq ▸ hstream) hcallClear hlast) hstate
  | opened hcall _ => exact absurd (hcall.clear hstream hclear) hstate
  | @closed after hcloses =>
      obtain ⟨levels, call, inner, hcall, hkind, hreads⟩ := hcloses
      have hinside := Calls.inside hcall hkind
      by_cases hlast : after.current.kind.endsReading
      · have hposition := hinside.position_eq hreads hlast
        exact hposition
      · have hcallClear := hinside.clear hstream hclear
        exact absurd (hreads.clear (hinside.stream_eq ▸ hstream) hcallClear hlast) hstate

end Inside

/-! ### Whole texts -/

/-- What the lexer notes does not end the reading. -/
theorem clear_start (text : List Char) : Clear (start text) := by
  intro note hmem
  rw [start, Segment.faults, DiagnosticLog.toList_ofList] at hmem
  obtain ⟨segment, -, hnote⟩ := List.mem_flatMap.1 hmem
  rcases Segment.cases_of_mem_diagnostics hnote with ⟨-, rfl⟩ | ⟨-, rfl⟩ <;> exact not_false

/-- Whether or not the end mark is consumed at the end, the kind of the current token stays the
same, and so do the tokens that are left before the end mark. -/
theorem expect_endOfFile {parser : Parser} (hstream : parser.stream.Terminal) :
    (parser.expect .endOfFile).2.current.kind = parser.current.kind ∧
      (parser.expect .endOfFile).2.upcoming = parser.upcoming := by
  by_cases hend : parser.current.kind = .endOfFile
  · have hnil : parser.upcoming = [] := by
      refine upcoming_eq_nil (fun token hmem htoken => ?_) hend
      have hterminal := hstream token (Array.mem_toList_iff.1 (List.mem_of_mem_drop hmem))
      rw [htoken] at hterminal
      exact absurd hterminal (by decide)
    have hadvance : (parser.advance 1).upcoming = [] := by
      rw [upcoming, advance, ← List.drop_drop, ← upcoming, hnil, List.drop_nil]
    rw [expect_of_kind hend]
    exact ⟨by rw [current_of_upcoming_nil hadvance, hend]; rfl, hadvance.trans hnil.symm⟩
  · rw [expect_of_kind_ne hend]
    exact ⟨rfl, rfl⟩

section Whole

variable {parser last : Parser} {parsed : Parsed}

/-- What is noted while a whole stream is read is a cascade, and then, unless the end mark is found,
that it is missing. -/
theorem readAll_cascade (hstream : parser.stream.Terminal)
    (hread : parser.readAll = (parsed, last)) :
    ∃ cascade : Cascade (maxDepth - parser.depth) last.current.kind,
      parsed.diagnostics = parser.diagnostics.toList ++ (cascade.notes ++
        if last.current.kind = .endOfFile then []
        else [.unexpectedToken .endOfFile last.current.kind]) := by
  have hreads := reads_apply parser .expression
  rw [readAll_eq] at hread
  generalize (parser.apply .expression).2 = after at hread hreads
  obtain ⟨rfl, rfl⟩ := Prod.mk.inj hread
  obtain ⟨cascade, hnotes⟩ := hreads.cascades hstream
  obtain ⟨hkind, -⟩ := expect_endOfFile (hreads.stream_eq ▸ hstream : after.stream.Terminal)
  rw [hkind]
  refine ⟨cascade, ?_⟩
  rw [← List.append_assoc, ← hnotes]
  by_cases hend : after.current.kind = .endOfFile
  · rw [if_pos hend, List.append_nil, expect_of_kind hend]
    rfl
  · rw [if_neg hend, expect_of_kind_ne hend]
    exact DiagnosticLog.toList_report _ _

/-- The tokens that are left when something is noted that ends the reading are those that are left
at the end. -/
theorem Visits.upcoming_eq {state : Parser} (hvisits : Visits parser .expression state)
    (hstream : parser.stream.Terminal) (hclear : Clear parser) (hstate : ¬Clear state)
    (hread : parser.readAll = (parsed, last)) : state.upcoming = last.upcoming := by
  have hreads := reads_apply parser .expression
  have hposition := hvisits.position_eq hstream hclear hstate
  rw [readAll_eq] at hread
  generalize (parser.apply .expression).2 = after at hread hreads hposition
  obtain ⟨rfl, rfl⟩ := Prod.mk.inj hread
  obtain ⟨-, hupcoming⟩ := expect_endOfFile (hreads.stream_eq ▸ hstream : after.stream.Terminal)
  rw [hupcoming, upcoming, upcoming, hvisits.stream_eq, hreads.stream_eq, hposition]

end Whole

/-! ### Main result -/

/-- What a parser of a text notes, behind what the lexer has noted, is first that numbers are
missing, at operators, closing parentheses or the end mark; then perhaps that parentheses are nested
too deep; then that some parentheses are not closed, and that the text is not at its end, all of
this at the same token.  From the moment on at which parentheses are noted nothing more is
consumed. -/
theorem diagnostics_cascade (text : String) (hruns : Text.DigitRunsWithin 4300 text.toList) :
    ∃ stream log fresh parsed last, tokenize text = .ok (stream, log) ∧
      ofText text = .ok fresh ∧ parse text = .ok parsed ∧ fresh.readAll = (parsed, last) ∧
      (∃ cascade : Cascade 100 last.current.kind,
        parsed.diagnostics = log.toList ++ (cascade.notes ++
          if last.current.kind = .endOfFile then []
          else [.unexpectedToken .endOfFile last.current.kind])) ∧
      ∀ state, Visits fresh .expression state →
        (∃ note ∈ state.diagnostics.toList, note.endsReading) →
          state.position = (fresh.apply .expression).2.position ∧
            state.upcoming = last.upcoming := by
  have hreadable : Segment.Readable text.toList := fun segment hmem =>
    Segment.not_isOverlong hruns hmem
  have hstream := terminal_start text.toList
  have hclear := clear_start text.toList
  have hparse := parse_of_readable hreadable
  have hlevels : maxDepth - (start text.toList).depth = 100 := rfl
  cases hread : (start text.toList).readAll with
  | mk parsed last =>
      rw [hread] at hparse
      have hcascade := readAll_cascade hstream hread
      rw [hlevels] at hcascade
      refine ⟨_, _, _, parsed, last, tokenize_of_readable hreadable, ofText_of_readable hreadable,
        hparse, hread, hcascade, ?_⟩
      intro state hvisits hnote
      have hstate : ¬Clear state := by
        obtain ⟨note, hmem, hends⟩ := hnote
        exact fun hall => hall note hmem hends
      exact ⟨hvisits.position_eq hstream hclear hstate,
        hvisits.upcoming_eq hstream hclear hstate hread⟩

/-- In `*(2+(3 4` a number and two closing parentheses are missing, and the last number is left. -/
theorem diagnostics_cascade_unclosed :
    Text.DigitRunsWithin 4300 "*(2+(3 4".toList ∧
      ∃ parsed, parse "*(2+(3 4" = .ok parsed ∧
        (∃ cascade : Cascade 100 .number,
          parsed.diagnostics = cascade.notes ++ [.unexpectedToken .endOfFile .number]) ∧
        parsed.diagnostics =
          [.unexpectedToken .number .multiply, .unexpectedToken .closeParenthesis .number,
           .unexpectedToken .closeParenthesis .number, .unexpectedToken .endOfFile .number] := by
  have hruns : Text.DigitRunsWithin 4300 "*(2+(3 4".toList :=
    Text.digitRunsWithin_of_length_le (by decide)
  obtain ⟨stream, log, fresh, parsed, last, htokenize, hfresh, hparse, hread, hcascade, -⟩ :=
    diagnostics_cascade "*(2+(3 4" hruns
  have hlog : (tokenize "*(2+(3 4").map (fun found => found.2.toList) = .ok [] := by
    decide +kernel
  have hresult : (ofText "*(2+(3 4").map
      (fun fresh => (fresh.readAll.2.current.kind, fresh.readAll.1.diagnostics)) =
      .ok (.number,
        [.unexpectedToken .number .multiply, .unexpectedToken .closeParenthesis .number,
         .unexpectedToken .closeParenthesis .number, .unexpectedToken .endOfFile .number]) := by
    decide +kernel
  rw [htokenize] at hlog
  have hnone : log.toList = [] := Except.ok.inj hlog
  rw [hfresh, Except.map, hread] at hresult
  obtain ⟨hlast, hdiagnostics⟩ := Prod.mk.inj (Except.ok.inj hresult)
  dsimp only at hlast hdiagnostics
  rw [hlast, hnone] at hcascade
  exact ⟨hruns, parsed, hparse, hcascade, hdiagnostics⟩

end Parser

end Calculator
