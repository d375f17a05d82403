/-
The texts about which nothing is noted.

Recovery never hides a fault: a stream of tokens is read without a diagnostic only if the grammar
derives the kinds of its tokens, with no more levels of parentheses than the parser follows.  And
the loops of the rules never miss a derivation.

* `Derives.exists_normal` — what the grammar derives are the tokens of a normal tree;
* `Parser.readAll_clean_iff` — **a stream is read without a diagnostic exactly if the grammar
  derives it**;
* `Segment.faults_eq_nil_iff` — the texts in which the lexer finds no fault;
* `parse_clean_iff` — **the texts about which nothing is noted**.
-/

import Calculator.Proofs.Parser.Shape
import Calculator.Proofs.Parser.Trace
import Calculator.Proofs.Text.Digit

set_option relaxedAutoImplicit false
set_option autoImplicit false

namespace Calculator

open Node (Normal)

/-! ### Derivations and trees -/

/-- Tokens whose kinds are those of an operation are themselves parted by an operator. -/
theorem Token.exists_of_map_kind {tokens : List Token} {left right : List Kind} {kind : Kind}
    (h : tokens.map Token.kind = left ++ kind :: right) :
    ∃ leftTokens operator rightTokens, tokens = leftTokens ++ operator :: rightTokens ∧
      leftTokens.map Token.kind = left ∧ operator.kind = kind ∧
      rightTokens.map Token.kind = right := by
  obtain ⟨leftTokens, more, rfl, hleft, hmore⟩ := List.map_eq_append_iff.1 h
  obtain ⟨operator, rightTokens, rfl, hkind, hright⟩ := List.map_eq_cons_iff.1 hmore
  exact ⟨leftTokens, operator, rightTokens, rfl, hleft, hkind, hright⟩

/-- A derivation groups the tokens into a normal tree. -/
theorem Derives.exists_normal {levels : Nat} {rule : Rule} {kinds : List Kind}
    (h : Derives levels rule kinds) :
    ∀ tokens : List Token, tokens.map Token.kind = kinds →
      ∃ node, Normal levels rule node ∧ node.leaves = tokens := by
  -- the tokens are general, because each part of a derivation derives only some of them
  induction h with
  | number =>
      intro tokens htokens
      obtain ⟨token, rfl, hkind⟩ := List.map_eq_singleton_iff.1 htokens
      exact ⟨.number token, .number hkind, rfl⟩
  | parentheses _ ih =>
      intro tokens htokens
      obtain ⟨opening, more, rfl, hopening, hmore⟩ := List.map_eq_cons_iff.1 htokens
      obtain ⟨inside, last, rfl, hinside, hlast⟩ := List.map_eq_append_iff.1 hmore
      obtain ⟨closing, rfl, hclosing⟩ := List.map_eq_singleton_iff.1 hlast
      obtain ⟨inner, hinner, rfl⟩ := ih inside hinside
      exact ⟨.parenthesized opening inner closing, .parenthesized hopening hinner hclosing, rfl⟩
  | factor _ ih =>
      intro tokens htokens
      obtain ⟨node, hnode, hleaves⟩ := ih tokens htokens
      exact ⟨node, .factor hnode, hleaves⟩
  | product _ hop _ ihLeft ihRight =>
      intro tokens htokens
      obtain ⟨leftTokens, operator, rightTokens, rfl, hleft, rfl, hright⟩ :=
        Token.exists_of_map_kind htokens
      obtain ⟨left, hleftNormal, rfl⟩ := ihLeft leftTokens hleft
      obtain ⟨right, hrightNormal, rfl⟩ := ihRight rightTokens hright
      exact ⟨.binary left operator right, .product hleftNormal hop hrightNormal, rfl⟩
  | addition _ ih =>
      intro tokens htokens
      obtain ⟨node, hnode, hleaves⟩ := ih tokens htokens
      exact ⟨node, .addition hnode, hleaves⟩
  | sum _ hop _ ihLeft ihRight =>
      intro tokens htokens
      obtain ⟨leftTokens, operator, rightTokens, rfl, hleft, rfl, hright⟩ :=
        Token.exists_of_map_kind htokens
      obtain ⟨left, hleftNormal, rfl⟩ := ihLeft leftTokens hleft
      obtain ⟨right, hrightNormal, rfl⟩ := ihRight rightTokens hright
      exact ⟨.binary left operator right, .sum hleftNormal hop hrightNormal, rfl⟩
  | expression _ ih =>
      intro tokens htokens
      obtain ⟨node, hnode, hleaves⟩ := ih tokens htokens
      exact ⟨node, .expression hnode, hleaves⟩

namespace Parser

/-! ### Streams -/

/-- Nothing is noted about a stream exactly if the grammar derives the kinds of its tokens. -/
theorem readAll_clean_iff {parser : Parser}
    (hend : ∀ token ∈ parser.upcoming, token.kind ≠ .endOfFile) :
    parser.readAll.1.diagnostics = parser.diagnostics.toList ↔
      Derives (maxDepth - parser.depth) .expression (parser.upcoming.map Token.kind) := by
  constructor
  · intro hclean
    obtain ⟨after, hreads, hleaves, hafter⟩ := readAll_of_clean hclean
    have hnil : after.upcoming = [] := upcoming_eq_nil
      (fun token hmem => hend token (hleaves ▸ List.mem_append_right _ hmem)) hafter
    rw [hleaves, hnil, List.append_nil]
    exact hreads.normal.derives
  · intro hderives
    obtain ⟨node, hnormal, hleaves⟩ := hderives.exists_normal parser.upcoming rfl
    rw [readAll_of_normal hnormal hleaves.symm]

end Parser

/-! ### Texts -/

namespace Segment

/-- The lexer finds no fault in a text of digits, blanks and symbols whose numbers lie in the signed
32-bit range. -/
theorem faults_eq_nil_iff {text : List Char} (h : Text.DigitRunsWithin maxDigits text) :
    (faults text).toList = [] ↔
      (∀ c ∈ text, Kind.ofChar c ≠ .invalid) ∧
        ∀ run, Text.MaximalDigitRun text run →
          (Text.positionalValue run : Int) ≤ Word32.maximum := by
  simp only [faults, DiagnosticLog.toList_ofList, List.flatMap_eq_nil_iff, ← Text.decimalValue_eq]
  constructor
  · intro hclean
    constructor
    · intro c hc
      obtain ⟨segment, hmem, hcmem⟩ := exists_segment_of_mem hc
      rw [(kind_of_mem_cut hmem).2 c hcmem]
      exact ((diagnostics_eq_nil_iff (not_isOverlong h hmem)).1 (hclean segment hmem)).1
    · intro run hrun
      have hmem := number_mem_cut_iff.2 hrun
      exact ((diagnostics_eq_nil_iff (not_isOverlong h hmem)).1 (hclean _ hmem)).2 rfl
  · rintro ⟨hvalid, hrange⟩ segment hmem
    refine (diagnostics_eq_nil_iff (not_isOverlong h hmem)).2 ⟨?_, fun hkind => ?_⟩
    · obtain ⟨hne, hkind⟩ := kind_of_mem_cut hmem
      obtain ⟨c, more, htext⟩ := List.exists_cons_of_ne_nil hne
      have hc : c ∈ segment.text := htext ▸ List.mem_cons_self
      rw [← hkind c hc]
      exact hvalid c ((infix_of_mem_cut hmem).subset hc)
    · obtain ⟨kind, run⟩ := segment
      cases hkind
      exact hrange run (number_mem_cut_iff.1 hmem)

end Segment

namespace Parser

/-- Without invalid characters the parser sees every token but whitespace. -/
theorem tokens_start_of_valid {text : List Char} (h : ∀ c ∈ text, Kind.ofChar c ≠ .invalid) :
    (start text).stream.tokens.toList =
      (Segment.stream text).tokens.toList.filter (·.kind ≠ .whitespace) := by
  rw [start, TokenStream.withoutTrivia, Array.toList_filter]
  refine List.filter_congr fun token hmem => ?_
  obtain ⟨c, hc, hkind⟩ := Segment.exists_kind_of_mem_tokens hmem
  -- of the two kinds that the parser does not see only whitespace is left
  have hvalid : token.kind ≠ .invalid := hkind ▸ h c hc
  cases hcase : token.kind <;> first | rfl | exact absurd hcase hvalid

/-- Nothing at all is noted about a text exactly if the lexer finds no fault in it and the grammar
derives the tokens that the parser sees. -/
theorem readAll_start_clean_iff (text : List Char) :
    (start text).readAll.1.diagnostics = [] ↔
      (Segment.faults text).toList = [] ∧
        Derives maxDepth .expression ((start text).stream.tokens.toList.map Token.kind) := by
  have hend : ∀ token ∈ (start text).upcoming, token.kind ≠ .endOfFile := fun token hmem =>
    Segment.kind_ne_endOfFile_of_mem_tokens (mem_tokens_of_mem_start (Array.mem_def.2 hmem))
  have hclean := readAll_clean_iff hend
  constructor
  · intro hnil
    have hprefix : (Segment.faults text).toList <+: (start text).readAll.1.diagnostics :=
      diagnostics_prefix_readAll (start text)
    have hfaults : (Segment.faults text).toList = [] :=
      List.prefix_nil.1 (hnil ▸ hprefix)
    exact ⟨hfaults, hclean.1 (hnil.trans hfaults.symm)⟩
  · rintro ⟨hfaults, hderives⟩
    exact (hclean.2 hderives).trans hfaults

end Parser

/-- Nothing is noted about a text exactly if it consists of blanks, digits, operators and
parentheses, all its numbers lie in the signed 32-bit range, and the grammar derives the kinds of
its tokens other than whitespace with at most 100 levels of parentheses. -/
theorem parse_clean_iff (text : String) (hruns : Text.DigitRunsWithin 4300 text.toList) :
    ∃ stream log parsed, tokenize text = .ok (stream, log) ∧ parse text = .ok parsed ∧
      (parsed.diagnostics = [] ↔
        (∀ c ∈ text.toList, Text.isBlank c = true ∨ Text.isDigit c = true ∨
          c ∈ ['+', '-', '*', '/', '(', ')']) ∧
        (∀ run, Text.MaximalDigitRun text.toList run → Text.positionalValue run ≤ 2147483647) ∧
        Derives 100 .expression
          ((stream.tokens.toList.filter (·.kind ≠ .whitespace)).map Token.kind)) := by
  refine ⟨_, _, _, tokenize_eq hruns, parse_eq hruns, ?_⟩
  have hrange : ∀ run, (Text.positionalValue run : Int) ≤ Word32.maximum ↔
      Text.positionalValue run ≤ 2147483647 := by
    intro run
    simp only [Word32.maximum]
    omega
  have hfaults := Segment.faults_eq_nil_iff hruns
  simp only [hrange, Kind.ofChar_ne_invalid_iff] at hfaults
  rw [Parser.readAll_start_clean_iff, hfaults, and_assoc]
  refine and_congr_right fun hvalid => and_congr_right fun _ => ?_
  rw [Parser.tokens_start_of_valid fun c hc => Kind.ofChar_ne_invalid_iff.2 (hvalid c hc)]
  rfl

/-- Nothing is noted about `(7) * 8`, because it consists of valid characters, its numbers are small
and its tokens are derived. -/
theorem parse_clean_product :
    Text.DigitRunsWithin 4300 "(7) * 8".toList ∧
      ∃ parsed, parse "(7) * 8" = .ok parsed ∧ parsed.diagnostics = [] := by
  have hruns : Text.DigitRunsWithin 4300 "(7) * 8".toList :=
    Text.digitRunsWithin_of_length_le (by decide)
  obtain ⟨stream, log, parsed, htokenize, hparse, hclean⟩ := parse_clean_iff "(7) * 8" hruns
  refine ⟨hruns, parsed, hparse, hclean.2 ⟨?_, fun run hrun => ?_, ?_⟩⟩
  · have hall : "(7) * 8".toList.all (fun c =>
        Text.isBlank c || Text.isDigit c || c ∈ ['+', '-', '*', '/', '(', ')']) := by
      decide +kernel
    simpa using hall
  · have hcut : Segment.cut "(7) * 8".toList =
        [⟨.openParenthesis, ['(']⟩, ⟨.number, ['7']⟩, ⟨.closeParenthesis, [')']⟩,
          ⟨.whitespace, [' ']⟩, ⟨.multiply, ['*']⟩, ⟨.whitespace, [' ']⟩, ⟨.number, ['8']⟩] := by
      decide +kernel
    have hmem := Segment.number_mem_cut_iff.2 hrun
    rw [hcut] at hmem
    simp only [List.mem_cons, Segment.mk.injEq, reduceCtorEq, false_and, true_and, false_or,
      List.not_mem_nil, or_false] at hmem
    rcases hmem with rfl | rfl <;> decide
  · have hkinds : (tokenize "(7) * 8").map (fun found =>
          (found.1.tokens.toList.filter (·.kind ≠ .whitespace)).map Token.kind) =
        .ok [.openParenthesis, .number, .closeParenthesis, .multiply, .number] := by
      decide +kernel
    rw [htokenize] at hkinds
    have hlist : (stream.tokens.toList.filter (·.kind ≠ .whitespace)).map Token.kind =
        [.openParenthesis, .number, .closeParenthesis, .multiply, .number] :=
      Except.ok.inj hkinds
    rw [hlist]
    have hseven : Derives 99 .expression [.number] := .expression (.addition (.factor .number))
    exact .expression (.addition (.product (.factor (.parentheses hseven)) rfl .number))

end Calculator
