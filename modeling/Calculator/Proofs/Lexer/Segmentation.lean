/-
There is only one way to cut a text into tokens.

The lexer takes at each offset as many characters as belong together.  This module says what comes
out of that without going through the text: the tokens make up the text, the characters of each are
of its kind, and no two neighbours could have been one token.  No other list of tokens has these
properties.

* `Kind.Spells`, `Kind.spells_iff_of_isRun`, `Kind.spells_singleton_iff` — the characters that a
  token of a kind may have;
* `Segment.WellFormed`, `Segment.Apart` — what the segments of a text and their neighbours are
  like;
* `Segment.eq_cut_iff` — **the segments of a text are the only ones of this kind**;
* `Token.Contiguous` — tokens that follow each other without a gap;
* `IsTokenization` — a list of tokens that cuts up the text;
* `tokenize_unique_tokenization` — the tokens that the lexer reads, and no others, cut up the text.
-/

import Calculator.Proofs.Lexer.Tokens
import Mathlib.Data.List.Chain
import Mathlib.Tactic.IntervalCases

set_option relaxedAutoImplicit false
set_option autoImplicit false

namespace Calculator

/-! ### Characters -/

/-- No blank is a digit. -/
theorem Text.isDigit_of_isBlank {c : Char} (h : Text.isBlank c = true) :
    Text.isDigit c = false := by
  obtain ⟨range, hmem, hfirst, hlast⟩ :=
    (CharRange.covers_iff Text.increasing_blankRanges c.toNat).1 h
  have hnone : Text.digitValueFrom? Text.zeros c.toNat = none := by
    generalize c.toNat = n at hfirst hlast
    simp only [Text.blankRanges, List.mem_cons, List.not_mem_nil, or_false] at hmem
    rcases hmem with rfl | rfl | rfl | rfl | rfl | rfl | rfl | rfl | rfl | rfl <;>
      dsimp only at hfirst hlast <;> interval_cases n <;> rfl
  rw [Text.isDigit, Text.digitValue?, hnone, Option.isSome_none]

namespace Kind

theorem ofChar_eq_whitespace_iff {c : Char} : ofChar c = .whitespace ↔ Text.isBlank c = true := by
  constructor
  · intro hkind
    rcases ofChar_cases c with ⟨-, h⟩ | ⟨-, hblank, -⟩ | ⟨-, -, hsymbol⟩ | ⟨-, -, -, h⟩
    · rw [hkind] at h
      cases h
    · exact hblank
    · rw [hkind] at hsymbol
      simp [symbols] at hsymbol
    · rw [hkind] at h
      cases h
  · intro hblank
    simp [ofChar, Text.isDigit_of_isBlank hblank, hblank]

/-- The kinds other than those of digits, blanks and invalid characters are kinds of symbols. -/
theorem ofChar_eq_iff_mem_symbols {c : Char} {kind : Kind} (hnumber : kind ≠ .number)
    (hblank : kind ≠ .whitespace) (hinvalid : kind ≠ .invalid) :
    ofChar c = kind ↔ (c, kind) ∈ symbols := by
  constructor
  · rintro rfl
    rcases ofChar_cases c with ⟨-, h⟩ | ⟨-, -, h⟩ | ⟨-, -, hsymbol⟩ | ⟨-, -, -, h⟩
    · exact absurd h hnumber
    · exact absurd h hblank
    · exact hsymbol
    · exact absurd h hinvalid
  · intro h
    simp only [symbols, List.mem_cons, Prod.mk.injEq, List.not_mem_nil, or_false] at h
    rcases h with ⟨rfl, rfl⟩ | ⟨rfl, rfl⟩ | ⟨rfl, rfl⟩ | ⟨rfl, rfl⟩ | ⟨rfl, rfl⟩ | ⟨rfl, rfl⟩ <;>
      decide

theorem ofChar_eq_invalid_iff {c : Char} :
    ofChar c = .invalid ↔
      Text.isDigit c = false ∧ Text.isBlank c = false ∧ c ∉ symbols.map Prod.fst := by
  rw [← not_iff_not, ← ne_eq, ofChar_ne_invalid_iff]
  cases Text.isDigit c <;> cases Text.isBlank c <;> simp

/-- `Spells kind text` says that a token of the kind may have these characters.  The kinds of
expressions are not kinds of tokens. -/
def Spells : Kind → List Char → Prop
  | .endOfFile, text => text = []
  | .number, text => text ≠ [] ∧ ∀ c ∈ text, Text.isDigit c = true
  | .whitespace, text => text ≠ [] ∧ ∀ c ∈ text, Text.isBlank c = true
  | .invalid, text =>
      ∃ c, text = [c] ∧ Text.isDigit c = false ∧ Text.isBlank c = false ∧
        c ∉ symbols.map Prod.fst
  -- an operator or a parenthesis is the one character that is its symbol
  | kind, text => ∃ c, text = [c] ∧ (c, kind) ∈ symbols

theorem spells_iff_of_isRun {kind : Kind} {text : List Char} (h : kind.isRun = true) :
    kind.Spells text ↔ text ≠ [] ∧ ∀ c ∈ text, ofChar c = kind := by
  cases kind with
  | number => simp only [Spells, ofChar_eq_number_iff]
  | whitespace => simp only [Spells, ofChar_eq_whitespace_iff]
  | _ => cases h

theorem spells_singleton_iff {kind : Kind} {c : Char} (h : kind ≠ .endOfFile) :
    kind.Spells [c] ↔ ofChar c = kind := by
  cases kind with
  | endOfFile => exact absurd rfl h
  | number => simp [Spells, ofChar_eq_number_iff]
  | whitespace => simp [Spells, ofChar_eq_whitespace_iff]
  | invalid => simp [Spells, ofChar_eq_invalid_iff]
  | _ => simp [Spells, ofChar_eq_iff_mem_symbols]

/-- What is no run is a single character. -/
theorem Spells.singleton {kind : Kind} {text : List Char} (h : kind.Spells text)
    (hend : kind ≠ .endOfFile) (hrun : kind.isRun = false) : ∃ c, text = [c] := by
  cases kind with
  | endOfFile => exact absurd rfl hend
  | number => cases hrun
  | whitespace => cases hrun
  | _ =>
      obtain ⟨c, htext, -⟩ := h
      exact ⟨c, htext⟩

end Kind

namespace Segment

/-! ### Segments -/

/-- A segment has characters, all of them of its kind, and only one of them unless it is a run. -/
structure WellFormed (segment : Segment) : Prop where
  ne_nil : segment.text ≠ []
  kind_eq : ∀ c ∈ segment.text, Kind.ofChar c = segment.kind
  singleton : segment.kind.isRun = false → ∃ c, segment.text = [c]

/-- Two neighbours are not runs of the same kind, which would be one longer run. -/
def Apart (segments : List Segment) : Prop :=
  segments.IsChain fun first second => first.kind = second.kind → first.kind.isRun = false

theorem wellFormed_of_mem_cut {text : List Char} {segment : Segment} (h : segment ∈ cut text) :
    segment.WellFormed :=
  ⟨(kind_of_mem_cut h).1, (kind_of_mem_cut h).2, eq_singleton_of_mem_cut h⟩

theorem apart_cut (text : List Char) : Apart (cut text) := by
  fun_induction cut text with
  | case1 => exact .nil
  | case2 c rest ih =>
      cases hafter : afterFirst c rest with
      | nil =>
          rw [cut_nil]
          exact .singleton _
      | cons d more =>
          rw [hafter, cut_cons] at ih
          rw [cut_cons]
          refine .cons_cons (fun hkind => Bool.eq_false_iff.2 fun hrun => ?_) ih
          -- the first segment would have taken `d` in
          have hhead : (afterFirst c rest).head? = some d := by rw [hafter]; rfl
          exact head?_afterRun hrun hhead hkind.symm

/-- A segment by itself is not cut any further. -/
theorem WellFormed.cut_text {segment : Segment} (h : segment.WellFormed) :
    cut segment.text = [segment] := by
  cases hrun : segment.kind.isRun with
  | true => exact cut_run hrun h.ne_nil h.kind_eq
  | false =>
      obtain ⟨kind, text⟩ := segment
      obtain ⟨c, rfl⟩ := h.singleton hrun
      have hkind : Kind.ofChar c = kind := h.kind_eq c List.mem_cons_self
      have hnotRun : kind.isRun = false := hrun
      simp [first, afterFirst, run, afterRun, hkind, hnotRun]

/-- What stands first in segments that are put together belongs to the first of them. -/
theorem kind_of_head?_flatten {segments : List Segment}
    (h : ∀ segment ∈ segments, segment.WellFormed) {c : Char}
    (hc : (segments.map Segment.text).flatten.head? = some c) :
    ∃ segment, segments.head? = some segment ∧ Kind.ofChar c = segment.kind := by
  cases segments with
  | nil => cases hc
  | cons segment rest =>
      have hsegment := h segment List.mem_cons_self
      obtain ⟨d, more, htext⟩ := List.exists_cons_of_ne_nil hsegment.ne_nil
      rw [List.map_cons, List.flatten_cons, htext, List.cons_append, List.head?_cons,
        Option.some.injEq] at hc
      refine ⟨segment, rfl, ?_⟩
      rw [← hc]
      exact hsegment.kind_eq d (htext ▸ List.mem_cons_self)

/-- What stands last in segments that are put together belongs to the last of them. -/
theorem kind_of_getLast?_flatten {segments : List Segment}
    (h : ∀ segment ∈ segments, segment.WellFormed) {c : Char}
    (hc : (segments.map Segment.text).flatten.getLast? = some c) :
    ∃ segment, segments.getLast? = some segment ∧ Kind.ofChar c = segment.kind := by
  rcases List.eq_nil_or_concat' segments with rfl | ⟨rest, segment, rfl⟩
  · cases hc
  · have hsegment := h segment (by simp)
    have hlast := List.getLast?_eq_some_getLast hsegment.ne_nil
    rw [List.map_append, List.flatten_append, List.map_singleton, List.flatten_singleton,
      List.getLast?_append, hlast, Option.some_or, Option.some.injEq] at hc
    refine ⟨segment, by simp, ?_⟩
    rw [← hc]
    exact hsegment.kind_eq _ (List.getLast_mem hsegment.ne_nil)

/-- Segments that are put together are cut apart again where they were joined. -/
theorem cut_flatten {segments : List Segment} (h : ∀ segment ∈ segments, segment.WellFormed)
    (hapart : Apart segments) : cut (segments.map Segment.text).flatten = segments := by
  induction segments with
  | nil => exact cut_nil
  | cons segment rest ih =>
      have hsegment := h segment List.mem_cons_self
      have hwellFormed : ∀ other ∈ rest, other.WellFormed :=
        fun other hmem => h other (List.mem_cons_of_mem _ hmem)
      rw [List.map_cons, List.flatten_cons, cut_append, hsegment.cut_text,
        ih hwellFormed hapart.of_cons, List.singleton_append]
      intro c d hc hd hkind
      -- the character behind the joint is one of the next segment
      obtain ⟨next, hnext, hsecond⟩ := kind_of_head?_flatten hwellFormed hd
      rw [hsegment.kind_eq c (List.mem_of_getLast? hc)] at hkind ⊢
      exact (List.isChain_cons.1 hapart).1 next hnext (hkind.trans hsecond)

/-- The segments of a text are the only well-formed ones that make up the text and are kept apart
by their kinds. -/
theorem eq_cut_iff {text : List Char} {segments : List Segment} :
    segments = cut text ↔ (segments.map Segment.text).flatten = text ∧
      (∀ segment ∈ segments, segment.WellFormed) ∧ Apart segments := by
  constructor
  · rintro rfl
    exact ⟨flatten_cut text, fun segment hmem => wellFormed_of_mem_cut hmem, apart_cut text⟩
  · rintro ⟨rfl, hwellFormed, hapart⟩
    exact (cut_flatten hwellFormed hapart).symm

/-- A segment is well-formed exactly if its characters spell a token of its kind, and not the end
mark. -/
theorem wellFormed_iff_spells {segment : Segment} :
    segment.WellFormed ↔ segment.kind ≠ .endOfFile ∧ segment.kind.Spells segment.text := by
  constructor
  · rintro ⟨hne, hkind, hsingle⟩
    obtain ⟨c, rest, htext⟩ := List.exists_cons_of_ne_nil hne
    have hend : segment.kind ≠ .endOfFile := by
      rw [← hkind c (htext ▸ List.mem_cons_self)]
      exact Kind.ofChar_ne_endOfFile c
    refine ⟨hend, ?_⟩
    cases hrun : segment.kind.isRun with
    | true => exact (Kind.spells_iff_of_isRun hrun).2 ⟨hne, hkind⟩
    | false =>
        obtain ⟨d, hd⟩ := hsingle hrun
        rw [hd]
        exact (Kind.spells_singleton_iff hend).2 (hkind d (hd ▸ List.mem_cons_self))
  · rintro ⟨hend, hspells⟩
    cases hrun : segment.kind.isRun with
    | true =>
        obtain ⟨hne, hkind⟩ := (Kind.spells_iff_of_isRun hrun).1 hspells
        exact ⟨hne, hkind, fun hnotRun => absurd hrun (Bool.eq_false_iff.1 hnotRun)⟩
    | false =>
        obtain ⟨c, hc⟩ := hspells.singleton hend hrun
        rw [hc] at hspells
        refine ⟨by simp [hc], fun d hd => ?_, fun _ => ⟨c, hc⟩⟩
        rw [hc, List.mem_singleton] at hd
        rw [hd]
        exact (Kind.spells_singleton_iff hend).1 hspells

end Segment

/-! ### Tokens -/

namespace Token

/-- The piece of text that the token claims to be read from. -/
def segment (token : Token) : Segment :=
  { kind := token.kind, text := token.text.toList }

@[simp] theorem segment_token (segment : Segment) (position : Nat) :
    (segment.token position).segment = segment := by
  simp [Token.segment, Segment.token]

/-- The texts of tokens, put together, are those of their segments. -/
theorem toList_join_text (tokens : List Token) :
    (String.join (tokens.map Token.text)).toList =
      ((tokens.map Token.segment).map Segment.text).flatten := by
  simp [String.toList_join, List.flatMap, Token.segment, Function.comp_def]

/-- `Contiguous start tokens` says that each of the tokens begins where all those before it, put
together from the offset `start` on, end. -/
def Contiguous (start : Nat) (tokens : List Token) : Prop :=
  ∀ (before : List Token) (token : Token) (after : List Token), tokens = before ++ token :: after →
    token.position = (start + (before.map (·.text.length)).sum : Nat)

theorem contiguous_nil (start : Nat) : Contiguous start [] := by
  intro before token after h
  simp at h

theorem contiguous_cons_iff {start : Nat} {token : Token} {tokens : List Token} :
    Contiguous start (token :: tokens) ↔
      token.position = start ∧ Contiguous (start + token.text.length) tokens := by
  constructor
  · intro h
    refine ⟨h [] token tokens rfl, ?_⟩
    intro before other after htokens
    rw [h (token :: before) other after (by rw [htokens, List.cons_append]), List.map_cons,
      List.sum_cons, Nat.add_assoc]
  · rintro ⟨hposition, h⟩ before other after htokens
    cases before with
    | nil =>
        obtain ⟨rfl, -⟩ := List.cons.inj htokens
        exact hposition
    | cons first before =>
        obtain ⟨rfl, hrest⟩ := List.cons.inj htokens
        rw [h before other after hrest, List.map_cons, List.sum_cons, Nat.add_assoc]

/-- Where contiguous tokens begin is determined by their texts. -/
theorem Contiguous.eq_of_segments_eq {start : Nat} {first second : List Token}
    (hfirst : Contiguous start first) (hsecond : Contiguous start second)
    (h : first.map Token.segment = second.map Token.segment) :
    first.map (fun token => (token.kind, token.position, token.text)) =
      second.map fun token => (token.kind, token.position, token.text) := by
  induction first generalizing start second with
  | nil =>
      rw [List.map_nil, eq_comm, List.map_eq_nil_iff] at h
      rw [h]
  | cons token tokens ih =>
      obtain ⟨other, others, rfl, hsegment, hrest⟩ := List.map_eq_cons_iff.1 h.symm
      obtain ⟨hposition, htokens⟩ := contiguous_cons_iff.1 hfirst
      obtain ⟨hother, hothers⟩ := contiguous_cons_iff.1 hsecond
      simp only [Token.segment, Segment.mk.injEq, String.toList_inj] at hsegment
      rw [hsegment.2] at hothers
      rw [List.map_cons, List.map_cons, ih htokens hothers hrest.symm, hposition, hother,
        hsegment.1, hsegment.2]

end Token

namespace Segment

@[simp] theorem map_segment_tokens (segments : List Segment) (start : Nat) :
    (tokens segments start).map Token.segment = segments := by
  induction segments generalizing start with
  | nil => rfl
  | cons segment rest ih => rw [tokens, List.map_cons, ih, Token.segment_token]

/-- Without their offsets the tokens of segments do not depend on what stands before them. -/
theorem map_erasePosition_tokens (segments : List Segment) (start : Nat) :
    (tokens segments start).map Token.erasePosition = segments.map (·.token 0) := by
  induction segments generalizing start with
  | nil => rfl
  | cons segment rest ih => rw [tokens, List.map_cons, List.map_cons, ih, erasePosition_token]

/-- A token of a text is determined by its segment, but for its offset. -/
theorem erasePosition_of_mem_tokens {text : List Char} {token : Token}
    (h : token ∈ tokens (cut text) 0) : token.erasePosition = token.segment.token 0 := by
  obtain ⟨segment, -, offset, rfl, -⟩ := exists_of_mem_tokens h
  rw [Token.segment_token, erasePosition_token]

theorem toList_stream (text : List Char) :
    (stream text).toList = tokens (cut text) 0 ++ [Token.endAt text.length] := by
  simp [stream, TokenStream.toList, TokenStream.endToken]

/-- The tokens of segments follow each other without a gap, and the end mark follows them. -/
theorem contiguous_tokens (segments : List Segment) (start : Nat) :
    Token.Contiguous start
      (tokens segments start ++ [Token.endAt (start + totalLength segments)]) := by
  induction segments generalizing start with
  | nil => exact Token.contiguous_cons_iff.2 ⟨rfl, Token.contiguous_nil _⟩
  | cons segment rest ih =>
      refine Token.contiguous_cons_iff.2 ⟨rfl, ?_⟩
      have hlength : (segment.token start).text.length = segment.length := by
        simp [token, length]
      rw [hlength, totalLength, ← Nat.add_assoc]
      exact ih (start + segment.length)

end Segment

/-! ### Main result -/

/-- `IsTokenization text tokens` says that the tokens cut up the text.  They make up the text, one
behind the other; the last of them, and no other, is the end mark, at the end of the text; the
characters of each are of its kind; and no two neighbours are both numbers or both whitespace. -/
structure IsTokenization (text : String) (tokens : List Token) : Prop where
  text_eq : String.join (tokens.map Token.text) = text
  contiguous : Token.Contiguous 0 tokens
  endOfFile : ∃ (before : List Token) (last : Token), tokens = before ++ [last] ∧
    last.kind = .endOfFile ∧ last.text = "" ∧ last.position = text.length ∧
    ∀ token ∈ before, token.kind ≠ .endOfFile
  spells : ∀ token ∈ tokens, token.kind.Spells token.text.toList
  apart : tokens.IsChain fun first second =>
    ¬(first.kind = .number ∧ second.kind = .number) ∧
      ¬(first.kind = .whitespace ∧ second.kind = .whitespace)

/-- Neighbours are kept apart by their kinds unless both are numbers or both are whitespace. -/
theorem Kind.apart_iff {first second : Kind} :
    (first = second → first.isRun = false) ↔
      ¬(first = .number ∧ second = .number) ∧ ¬(first = .whitespace ∧ second = .whitespace) := by
  cases first <;> cases second <;> decide

/-- Neighbouring tokens are kept apart in this way exactly if their segments are. -/
theorem Token.apart_iff {tokens : List Token} :
    Segment.Apart (tokens.map Token.segment) ↔ tokens.IsChain fun first second =>
      ¬(first.kind = .number ∧ second.kind = .number) ∧
        ¬(first.kind = .whitespace ∧ second.kind = .whitespace) := by
  rw [Segment.Apart, List.isChain_map]
  simp only [Token.segment, Kind.apart_iff]

/-- The tokens that the lexer reads cut up the text. -/
theorem Segment.isTokenization_stream (text : String) :
    IsTokenization text (Segment.stream text.toList).toList := by
  rw [Segment.toList_stream]
  refine ⟨?_, ?_, ⟨_, _, rfl, rfl, rfl, ?_, ?_⟩, ?_, ?_⟩
  · apply String.toList_injective
    rw [Token.toList_join_text, List.map_append, Segment.map_segment_tokens, List.map_append,
      List.flatten_append, flatten_cut]
    simp [Token.segment, Token.endAt]
  · have h := Segment.contiguous_tokens (cut text.toList) 0
    rwa [Segment.totalLength_cut, Nat.zero_add] at h
  · exact congrArg Nat.cast String.length_toList
  · exact fun token hmem => kind_ne_endOfFile_of_mem_tokens hmem
  · intro token hmem
    rcases List.mem_append.1 hmem with hmem | hmem
    · have hsegment : token.segment ∈ cut text.toList := by
        rw [← Segment.map_segment_tokens (cut text.toList) 0]
        exact List.mem_map_of_mem hmem
      exact (wellFormed_iff_spells.1 (wellFormed_of_mem_cut hsegment)).2
    · rw [List.mem_singleton.1 hmem]
      rfl
  · rw [List.isChain_append]
    refine ⟨Token.apart_iff.1 ?_, .singleton _, ?_⟩
    · rw [Segment.map_segment_tokens]
      exact apart_cut text.toList
    · intro token _ other hother
      cases hother
      simp [Token.endAt]

/-- What cuts up a text are the segments of the text, with an end mark behind them. -/
theorem IsTokenization.segments_eq {text : String} {tokens : List Token}
    (h : IsTokenization text tokens) :
    tokens.map Token.segment = Segment.cut text.toList ++ [⟨.endOfFile, []⟩] := by
  obtain ⟨before, last, rfl, hkind, htext, -, hbefore⟩ := h.endOfFile
  have hlast : last.segment = ⟨.endOfFile, []⟩ := by
    simp [Token.segment, hkind, htext]
  have hcut : before.map Token.segment = Segment.cut text.toList := by
    refine Segment.eq_cut_iff.2 ⟨?_, ?_, ?_⟩
    · have hjoin := congrArg String.toList h.text_eq
      rw [Token.toList_join_text, List.map_append, List.map_append, List.flatten_append] at hjoin
      simpa [hlast] using hjoin
    · intro segment hmem
      obtain ⟨token, htoken, rfl⟩ := List.mem_map.1 hmem
      exact Segment.wellFormed_iff_spells.2
        ⟨hbefore token htoken, h.spells token (List.mem_append_left _ htoken)⟩
    · exact Token.apart_iff.2 h.apart.left_of_append
  rw [List.map_append, hcut, List.map_singleton, hlast]

/-- The tokens that the lexer reads cut up the text, and no others do: any list of tokens that cuts
up the text consists of tokens with the same kinds, offsets and texts. -/
theorem tokenize_unique_tokenization (text : String)
    (hruns : Text.DigitRunsWithin 4300 text.toList) :
    ∃ stream log, tokenize text = .ok (stream, log) ∧ IsTokenization text stream.toList ∧
      ∀ tokens, IsTokenization text tokens →
        tokens.map (fun token => (token.kind, token.position, token.text)) =
          stream.toList.map fun token => (token.kind, token.position, token.text) := by
  have hstream := Segment.isTokenization_stream text
  refine ⟨_, _, tokenize_eq hruns, hstream, fun tokens htokens => ?_⟩
  exact htokens.contiguous.eq_of_segments_eq hstream.contiguous
    (htokens.segments_eq.trans hstream.segments_eq.symm)

/-- The text has a number with digits of two scripts, two invalid characters side by side, one of
them the character zero, and a run of two blanks. -/
theorem tokenize_unique_tokenization_mixed :
    Text.DigitRunsWithin 4300 "4\u0663\x00_ \t(".toList ∧
      ∃ stream log, tokenize "4\u0663\x00_ \t(" = .ok (stream, log) ∧
        stream.toList =
          [⟨.number, 0, "4\u0663", some 43⟩, ⟨.invalid, 2, "\x00", none⟩, ⟨.invalid, 3, "_", none⟩,
            ⟨.whitespace, 4, " \t", none⟩, ⟨.openParenthesis, 6, "(", none⟩, Token.endAt 7] ∧
        IsTokenization "4\u0663\x00_ \t(" stream.toList := by
  have hruns : Text.DigitRunsWithin 4300 "4\u0663\x00_ \t(".toList :=
    Text.digitRunsWithin_of_length_le (by decide)
  obtain ⟨stream, log, htokenize, htokenization, -⟩ := tokenize_unique_tokenization _ hruns
  have hstream : (tokenize "4\u0663\x00_ \t(").map (·.1.toList) = .ok
      [⟨.number, 0, "4\u0663", some 43⟩, ⟨.invalid, 2, "\x00", none⟩, ⟨.invalid, 3, "_", none⟩,
        ⟨.whitespace, 4, " \t", none⟩, ⟨.openParenthesis, 6, "(", none⟩, Token.endAt 7] := by
    decide +kernel
  rw [htokenize] at hstream
  exact ⟨hruns, stream, log, htokenize, Except.ok.inj hstream, htokenization⟩

end Calculator
