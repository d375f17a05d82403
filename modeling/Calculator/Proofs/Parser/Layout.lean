/-
Readings do not depend on the offsets of tokens, nor on what they leave unread.

The parser looks at the kinds of tokens and passes their offsets on into the tree, and it looks one
token ahead of what it consumes.  If a stream is cut off where a reading ends, then the end mark
takes the place of the token that was ahead, and that makes no difference: neither can be consumed
there, so neither continues the reading.  An opening parenthesis that is nested too deep is no
exception, since a placeholder number stands in for it as well as for the end mark.

* `TokenStream.CutOff`, `TokenStream.CutOff.of_map_eq` — a stream that is cut off at an index, up to
  offsets;
* `Parser.Parallel` — two parsers at the same index of such streams;
* `Parser.Parallel.expect` — they find the same token, or both miss it;
* `Parser.Reads.transfer` — **what one of them reads the other reads as well**, up to offsets.
-/

import Calculator.Proofs.Parser.Reading

set_option relaxedAutoImplicit false
set_option autoImplicit false

namespace Calculator

/-- `CutOff limit first second` says that the second stream has the tokens of the first one up to
the index `limit`, perhaps at other offsets, and ends there. -/
structure TokenStream.CutOff (limit : Nat) (first second : TokenStream) : Prop where
  size_eq : second.tokens.size = limit
  get_eq : ∀ index < limit, (second.get index).erasePosition = (first.get index).erasePosition

/-- It is enough to compare the tokens as lists. -/
theorem TokenStream.CutOff.of_map_eq {limit : Nat} {first second : TokenStream}
    (hlimit : limit ≤ first.tokens.size)
    (h : second.tokens.toList.map Token.erasePosition =
      (first.tokens.toList.take limit).map Token.erasePosition) :
    CutOff limit first second := by
  have hsize : second.tokens.size = limit := by
    have hlength := congrArg List.length h
    simp only [List.length_map, List.length_take, Array.length_toList] at hlength
    rw [hlength, Nat.min_eq_left hlimit]
  refine ⟨hsize, fun index hindex => ?_⟩
  have hfirst : index < first.tokens.size := by omega
  have hsecond : index < second.tokens.size := by omega
  have hget := congrArg (·[index]?) h
  simpa [TokenStream.get, hfirst, hsecond, hindex] using hget

namespace Parser

/-! ### Two parsers -/

/-- `Parallel limit parser other` says that both parsers stand at the same index, the other one in a
stream that is cut off. -/
structure Parallel (limit : Nat) (parser other : Parser) : Prop where
  stream : TokenStream.CutOff limit parser.stream other.stream
  position_eq : other.position = parser.position

namespace Parallel

variable {limit : Nat} {parser other : Parser}

theorem advance (h : Parallel limit parser other) (count : Nat) :
    Parallel limit (parser.advance count) (other.advance count) :=
  ⟨h.stream, congrArg (· + count) h.position_eq⟩

theorem enter (h : Parallel limit parser other) : Parallel limit parser.enter other.enter :=
  ⟨h.stream, (h.advance 1).position_eq⟩

theorem leave (h : Parallel limit parser other) : Parallel limit parser.leave other.leave :=
  ⟨h.stream, h.position_eq⟩

/-- Before the cut the current tokens agree. -/
theorem current_eq (h : Parallel limit parser other) (hlt : parser.position < limit) :
    other.current.erasePosition = parser.current.erasePosition := by
  have hget := h.stream.get_eq parser.position hlt
  rw [current, current, h.position_eq]
  exact hget

theorem kind_eq (h : Parallel limit parser other) (hlt : parser.position < limit) :
    other.current.kind = parser.current.kind :=
  Token.kind_eq_of_erasePosition_eq (h.current_eq hlt)

/-- Behind the cut there is only the end mark. -/
theorem current_of_le (h : Parallel limit parser other) (hle : limit ≤ parser.position) :
    other.current = other.stream.endToken := by
  refine TokenStream.get_of_size_le ?_
  rw [TokenStream.size, h.stream.size_eq, h.position_eq]
  omega

theorem kind_of_le (h : Parallel limit parser other) (hle : limit ≤ parser.position) :
    other.current.kind = .endOfFile := by
  rw [h.current_of_le hle]
  rfl

/-- What is not the case for the current kind of the one parser, and not for the end mark either, is
not the case for the current kind of the other one. -/
theorem not_of_not (h : Parallel limit parser other) (property : Kind → Bool)
    (hend : property .endOfFile = false) (hnot : property parser.current.kind = false) :
    property other.current.kind = false := by
  by_cases hlt : parser.position < limit
  · rwa [h.kind_eq hlt]
  · rwa [h.kind_of_le (Nat.not_lt.1 hlt)]

/-- So a kind that the one parser does not find, and that is not that of the end mark, the other one
does not find either. -/
theorem kind_ne (h : Parallel limit parser other) {kind : Kind} (hkind : kind ≠ .endOfFile)
    (hne : parser.current.kind ≠ kind) : other.current.kind ≠ kind :=
  of_decide_eq_false (h.not_of_not (fun found => decide (found = kind))
    (decide_eq_false hkind.symm) (decide_eq_false hne))

/-- A required token is found by both parsers or missed by both, unless it is the very one at which
the stream is cut off. -/
theorem expect (h : Parallel limit parser other) (kind : Kind) (hkind : kind ≠ .endOfFile)
    (hlimit : (parser.expect kind).2.position ≤ limit) :
    (other.expect kind).1.erasePosition = (parser.expect kind).1.erasePosition ∧
      Parallel limit (parser.expect kind).2 (other.expect kind).2 := by
  by_cases hfound : parser.current.kind = kind
  · rw [expect_of_kind hfound] at hlimit ⊢
    have hlt : parser.position < limit := hlimit
    rw [expect_of_kind ((h.kind_eq hlt).trans hfound)]
    exact ⟨h.current_eq hlt, h.advance 1⟩
  · rw [expect_of_kind_ne hfound, expect_of_kind_ne (h.kind_ne hkind hfound)]
    exact ⟨rfl, h.stream, h.position_eq⟩

end Parallel

/-! ### Transfer -/

/-- What a rule reads up to the cut it reads as well in the stream that is cut off there. -/
theorem Reads.transfer {levels : Nat} {rule : Rule} {parser after : Parser} {node : Node}
    (h : Reads levels rule parser node after) :
    ∀ {limit : Nat} {other : Parser}, Parallel limit parser other → after.position ≤ limit →
      ∃ node' after', Reads levels rule other node' after' ∧
        node'.erasePositions = node.erasePositions ∧ Parallel limit after after' := by
  -- the parts of a tree are read from different places, so both parsers are general
  induction h with
  | @number levels parser hkind =>
      intro limit other hparallel hlimit
      obtain ⟨htoken, hafter⟩ := hparallel.expect .number (by decide) hlimit
      exact ⟨_, _, .number (hparallel.kind_ne nofun hkind), congrArg Node.number htoken, hafter⟩
  | @tooDeep parser hkind =>
      intro limit other hparallel hlimit
      by_cases hlt : parser.position < limit
      · exact ⟨_, _, .tooDeep ((hparallel.kind_eq hlt).trans hkind), rfl,
          hparallel.stream, hparallel.position_eq⟩
      · -- the end mark stands for the parenthesis that is not followed
        have hend := hparallel.kind_of_le (Nat.not_lt.1 hlt)
        have hmissed : other.current.kind ≠ .number := by rw [hend]; decide
        have hreads : Reads 0 .primary other _ _ := .number (by rw [hend]; decide)
        rw [expect_of_kind_ne hmissed] at hreads
        exact ⟨_, _, hreads, rfl, hparallel.stream, hparallel.position_eq⟩
  | @parenthesized levels parser after inner hkind hinner ih =>
      intro limit other hparallel hlimit
      have hinnerLimit : after.position ≤ limit :=
        Nat.le_trans (position_le_expect after.leave .closeParenthesis) hlimit
      have hlt : parser.position < limit := Nat.lt_of_lt_of_le hinner.position_le hinnerLimit
      obtain ⟨inner', after', hreads, hnode, hafter⟩ := ih hparallel.enter hinnerLimit
      obtain ⟨hclosing, hlast⟩ := hafter.leave.expect .closeParenthesis (by decide) hlimit
      refine ⟨_, _, .parenthesized ((hparallel.kind_eq hlt).trans hkind) hreads, ?_, hlast⟩
      simp only [Node.erasePositions, Node.mapTokens] at hnode ⊢
      rw [hparallel.current_eq hlt, hnode, hclosing]
  | factor _ ih =>
      intro limit other hparallel hlimit
      obtain ⟨node', after', hreads, hnode, hafter⟩ := ih hparallel hlimit
      exact ⟨node', after', .factor hreads, hnode, hafter⟩
  | @product levels parser between after left right _ hop hright ihLeft ihRight =>
      intro limit other hparallel hlimit
      have hlt : between.position < limit := Nat.lt_of_lt_of_le hright.position_le hlimit
      obtain ⟨left', between', hleft, hleftNode, hbetween⟩ := ihLeft hparallel (Nat.le_of_lt hlt)
      obtain ⟨right', after', hreads, hnode, hafter⟩ := ihRight (hbetween.advance 1) hlimit
      refine ⟨_, _, .product hleft ?_ hreads, ?_, hafter⟩
      · rwa [hbetween.kind_eq hlt]
      · simp only [Node.erasePositions, Node.mapTokens] at hleftNode hnode ⊢
        rw [hbetween.current_eq hlt, hleftNode, hnode]
  | addition _ hstop ih =>
      intro limit other hparallel hlimit
      obtain ⟨node', after', hreads, hnode, hafter⟩ := ih hparallel hlimit
      exact ⟨node', after', .addition hreads (hafter.not_of_not _ rfl hstop), hnode, hafter⟩
  | @sum levels parser between after left right _ hop hright hstop ihLeft ihRight =>
      intro limit other hparallel hlimit
      have hlt : between.position < limit := Nat.lt_of_lt_of_le hright.position_le hlimit
      obtain ⟨left', between', hleft, hleftNode, hbetween⟩ := ihLeft hparallel (Nat.le_of_lt hlt)
      obtain ⟨right', after', hreads, hnode, hafter⟩ := ihRight (hbetween.advance 1) hlimit
      refine ⟨_, _, .sum hleft ?_ hreads (hafter.not_of_not _ rfl hstop), ?_, hafter⟩
      · rwa [hbetween.kind_eq hlt]
      · simp only [Node.erasePositions, Node.mapTokens] at hleftNode hnode ⊢
        rw [hbetween.current_eq hlt, hleftNode, hnode]
  | expression _ hstop ih =>
      intro limit other hparallel hlimit
      obtain ⟨node', after', hreads, hnode, hafter⟩ := ih hparallel hlimit
      exact ⟨node', after', .expression hreads (hafter.not_of_not _ rfl hstop), hnode, hafter⟩

end Parser

end Calculator
