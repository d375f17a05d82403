/-
Restoring a text from its tree.

A tree keeps the texts and the offsets of its tokens.  If nothing was noted about a text, then every
character of it that is not blank stands in exactly one token of the tree.  So the text can be
written again from its tree, except that it is not known which blanks stood between the tokens.
Hence two such texts have the same tree exactly if they have the same characters in the same places,
apart from the choice of blanks.

* `Text.overwrite`, `Token.writeAll`, `Parsed.restore` — tokens written at their offsets on a page
  of spaces;
* `Segment.writeAll_visible` — **the tokens that the parser sees, written at their offsets, make up
  the text with spaces for all other characters**;
* `Parser.start_of_clean` — the tokens in the tree of a text about which nothing is noted;
* `clean_tree_determines_text` — such a tree and its text determine each other, up to blanks.
-/

import Calculator.Proofs.Parser.Acceptance
import Calculator.Proofs.Parser.Spacing

set_option relaxedAutoImplicit false
set_option autoImplicit false

namespace Calculator

/-! ### Writing tokens on a page -/

/-- The page with the text written over it from the given offset on. -/
def Text.overwrite (page : List Char) (offset : Nat) (text : List Char) : List Char :=
  page.take offset ++ (text ++ page.drop (offset + text.length))

/-- The page with the tokens written over it one after the other, each at its offset. -/
def Token.writeAll (page : List Char) (tokens : List Token) : List Char :=
  tokens.foldl (fun page token => Text.overwrite page token.position.toNat token.text.toList) page

/-- The text that the tokens of the tree make up, on a page of spaces that ends at the end mark. -/
def Parsed.restore (parsed : Parsed) : List Char :=
  Token.writeAll (List.replicate parsed.endOfFile.position.toNat ' ') parsed.root.tokens

/-- What is overwritten is as long as the text, and nothing else is. -/
theorem Text.overwrite_append (before text gap after : List Char)
    (hlength : text.length = gap.length) :
    overwrite (before ++ (gap ++ after)) before.length text = before ++ (text ++ after) := by
  rw [overwrite, List.take_left, hlength, ← List.drop_drop, List.drop_left, List.drop_left]

theorem Token.writeAll_cons (page : List Char) (token : Token) (tokens : List Token) :
    writeAll page (token :: tokens) =
      writeAll (Text.overwrite page token.position.toNat token.text.toList) tokens := rfl

/-- A space in the place of a character that the parser does not see; any other one stays. -/
def Text.blankTrivia : Char → Char :=
  blankOut fun c => (Kind.ofChar c).isTrivia

theorem Text.blankTrivia_of_isTrivia {c : Char} (h : (Kind.ofChar c).isTrivia = true) :
    blankTrivia c = ' ' :=
  if_pos h

/-- All characters of a token that the parser sees stay. -/
theorem Segment.map_blankTrivia_first {c : Char} (h : (Kind.ofChar c).isTrivia = false)
    (rest : List Char) : (first c rest).text.map Text.blankTrivia = (first c rest).text := by
  refine (List.map_congr_left fun d hd => ?_).trans (List.map_id _)
  rw [Text.blankTrivia, Text.blankOut, kind_of_mem_first hd, h]
  rfl

/-- A token is written where its segment begins. -/
theorem Segment.overwrite_token (segment : Segment) (before gap after : List Char)
    (hlength : segment.length = gap.length) :
    Text.overwrite (before ++ (gap ++ after)) (segment.token before.length).position.toNat
        (segment.token before.length).text.toList =
      before ++ (segment.text ++ after) := by
  rw [token, String.toList_ofList, Int.toNat_natCast]
  exact Text.overwrite_append before segment.text gap after hlength

/-- The tokens that the parser sees, written behind what stands on the page already, make up the
text with a space for every other character. -/
theorem Segment.writeAll_visible (before text : List Char) :
    Token.writeAll (before ++ List.replicate text.length ' ') (visible text before.length) =
      before ++ text.map Text.blankTrivia := by
  -- what has been written grows from left to right, so it is general
  induction text using induction_visible generalizing before with
  | nil =>
      rw [visible_nil]
      rfl
  | trivia c rest h ih =>
      have hpage : before ++ List.replicate (c :: rest).length ' ' =
          (before ++ [' ']) ++ List.replicate rest.length ' ' := by
        rw [List.length_cons, List.replicate_succ, List.append_assoc, List.singleton_append]
      have hstart : before.length + 1 = (before ++ [' ']).length := by simp
      rw [visible_cons_of_isTrivia h, hpage, hstart, ih, List.map_cons,
        Text.blankTrivia_of_isTrivia h, List.append_assoc, List.singleton_append]
  | token c rest h ih =>
      have hlength : (c :: rest).length = (first c rest).length + (afterFirst c rest).length := by
        rw [length, ← List.length_append, first_append_afterFirst]
      have hstart : before.length + (first c rest).length =
          (before ++ (first c rest).text).length := List.length_append.symm
      rw [visible_cons_of_not_isTrivia h, Token.writeAll_cons, hlength, List.replicate_add,
        overwrite_token _ _ _ _ List.length_replicate.symm, ← List.append_assoc, hstart, ih,
        List.append_assoc, ← map_blankTrivia_first h rest, ← List.map_append,
        first_append_afterFirst]

/-! ### Texts about which nothing is noted -/

/-- If nothing is noted about a text, then the lexer found no fault in it, its tree has the tokens
that the parser sees and no others, and the end mark stands at the end of the text. -/
theorem Parser.start_of_clean {text : List Char}
    (hclean : (start text).readAll.1.diagnostics = []) :
    (Segment.faults text).toList = [] ∧
      (start text).readAll.1.root.leaves = Segment.visible text 0 ∧
      (start text).readAll.1.endOfFile = Token.endAt text.length := by
  obtain ⟨hfaults, hderives⟩ := (readAll_start_clean_iff text).1 hclean
  obtain ⟨node, hnormal, hleaves⟩ := hderives.exists_normal _ rfl
  rw [readAll_start_of_normal hnormal hleaves.symm]
  refine ⟨hfaults, ?_, rfl⟩
  rw [hleaves, start_eq_noting, noting, bare]

theorem Text.isTrivia_of_isBlank (c : Char) (h : isBlank c = true) :
    (Kind.ofChar c).isTrivia = true := by
  rw [Kind.ofChar_eq_whitespace_iff.2 h]
  rfl

/-- Without invalid characters the parser sees everything but blanks. -/
theorem Text.map_blankTrivia_of_clean {text : List Char}
    (h : (Segment.faults text).toList = []) :
    text.map blankTrivia = text.map (blankOut isBlank) := by
  have hinvalid := Segment.filter_isInvalidCharacter_faults text
  rw [h, List.filter_nil, eq_comm, List.map_eq_nil_iff, List.filter_eq_nil_iff] at hinvalid
  refine List.map_congr_left fun c hc => ?_
  have hvalid : Kind.ofChar c ≠ .invalid := by simpa using hinvalid c hc
  have htrivia : (Kind.ofChar c).isTrivia = isBlank c := by
    rw [Bool.eq_iff_iff, ← Kind.ofChar_eq_whitespace_iff]
    cases hkind : Kind.ofChar c <;> simp [Kind.isTrivia]
    exact hvalid hkind
  rw [blankTrivia, blankOut, blankOut, htrivia]

/-- If nothing is noted about a text, it can be restored from its tree, with spaces for its
blanks. -/
theorem Parser.restore_of_clean {text : List Char}
    (hclean : (start text).readAll.1.diagnostics = []) :
    (start text).readAll.1.restore = text.map (Text.blankOut Text.isBlank) := by
  obtain ⟨hfaults, hleaves, hend⟩ := start_of_clean hclean
  have hwritten := Segment.writeAll_visible [] text
  rw [Parsed.restore, Node.tokens_eq_leaves, hleaves, hend, ← Text.map_blankTrivia_of_clean hfaults]
  exact hwritten

/-- A text about which nothing is noted can be restored from its tree: the texts of the tokens,
written at their offsets on a page of spaces that ends at the end mark, are the text with every
blank replaced by a space.  Two such texts are parsed as the same tree, with the same end mark and
the same diagnostics, exactly if they become the same when every blank is replaced by a space. -/
theorem clean_tree_determines_text :
    (∀ text parsed, parse text = .ok parsed → parsed.diagnostics = [] →
      parsed.restore = text.toList.map (Text.blankOut Text.isBlank)) ∧
    ∀ first second firstParsed secondParsed,
      parse first = .ok firstParsed → firstParsed.diagnostics = [] →
      parse second = .ok secondParsed → secondParsed.diagnostics = [] →
      (firstParsed = secondParsed ↔
        first.toList.map (Text.blankOut Text.isBlank) =
          second.toList.map (Text.blankOut Text.isBlank)) := by
  have hrestore : ∀ text parsed, parse text = .ok parsed → parsed.diagnostics = [] →
      parsed.restore = text.toList.map (Text.blankOut Text.isBlank) := by
    intro text parsed hparse hclean
    rw [parse_of_readable (readable_of_parse hparse), Except.ok.injEq] at hparse
    rw [← hparse] at hclean ⊢
    exact Parser.restore_of_clean hclean
  refine ⟨hrestore, ?_⟩
  intro first second firstParsed secondParsed hfirst hfirstClean hsecond hsecondClean
  constructor
  · intro h
    rw [← hrestore first firstParsed hfirst hfirstClean, h,
      hrestore second secondParsed hsecond hsecondClean]
  · intro h
    have hbare : Parser.bare first.toList = Parser.bare second.toList := by
      rw [← Parser.bare_map (.blankOut Text.isTrivia_of_isBlank) first.toList, h,
        Parser.bare_map (.blankOut Text.isTrivia_of_isBlank)]
    rw [parse_of_readable (readable_of_parse hfirst), Except.ok.injEq] at hfirst
    rw [parse_of_readable (readable_of_parse hsecond), Except.ok.injEq] at hsecond
    rw [← hfirst] at hfirstClean
    rw [← hsecond] at hsecondClean
    rw [← hfirst, ← hsecond, Parser.readAll_start, Parser.readAll_start, hbare,
      (Parser.start_of_clean hfirstClean).1, (Parser.start_of_clean hsecondClean).1]

/-- `7\t*(3 )` and `7 *(3\u3000)` have different blanks in the same places.  Nothing is noted about
them, so they have the same tree, and from this both are restored with spaces. -/
theorem clean_tree_determines_product :
    ∃ first second, parse "7\t*(3 )" = .ok first ∧ first.diagnostics = [] ∧
      parse "7 *(3\u3000)" = .ok second ∧ second.diagnostics = [] ∧
      first = second ∧ first.restore = "7 *(3 )".toList := by
  have hparseFirst : (parse "7\t*(3 )").map Parsed.diagnostics = .ok [] := by decide +kernel
  have hparseSecond : (parse "7 *(3\u3000)").map Parsed.diagnostics = .ok [] := by decide +kernel
  obtain ⟨first, hfirst, hfirstClean⟩ := exists_of_map_parse hparseFirst
  obtain ⟨second, hsecond, hsecondClean⟩ := exists_of_map_parse hparseSecond
  obtain ⟨hrestore, hsame⟩ := clean_tree_determines_text
  refine ⟨first, second, hfirst, hfirstClean, hsecond, hsecondClean, ?_, ?_⟩
  · exact (hsame _ _ _ _ hfirst hfirstClean hsecond hsecondClean).2 (by decide +kernel)
  · rw [hrestore _ _ hfirst hfirstClean]
    decide +kernel

end Calculator
