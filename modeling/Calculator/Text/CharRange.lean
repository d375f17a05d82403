/-
Sets of characters given by ranges of code points.

Character classes of the Unicode standard are unions of ranges; this module holds the one lookup
that all of them share.

* `CharRange` — a range of code points, both ends included;
* `CharRange.covers` — membership in a union of ranges listed in increasing order;
* `CharRange.Increasing` — what "in increasing order" means;
* `CharRange.covers_iff` — on an increasing list, `covers` is membership in one of the ranges.
-/

set_option relaxedAutoImplicit false
set_option autoImplicit false

namespace Calculator

/-- The code points from `first` to `last`, both included. -/
structure CharRange where
  /-- The smallest code point of the range. -/
  first : Nat
  /-- The largest code point of the range. -/
  last : Nat
deriving DecidableEq

namespace CharRange

/-- Does one of the ranges hold the code point?  The search ends at the first range that begins
above it, so the ranges have to be listed in increasing order. -/
def covers : List CharRange → Nat → Bool
  | [], _ => false
  | range :: ranges, n => if n < range.first then false else n ≤ range.last || covers ranges n

/-- Each range is non-empty and ends below the beginning of every later one. -/
def Increasing : List CharRange → Prop
  | [] => True
  | range :: ranges =>
      range.first ≤ range.last ∧ (∀ later ∈ ranges, range.last < later.first) ∧ Increasing ranges

/-- On an increasing list the early end of the search loses nothing. -/
theorem covers_iff {ranges : List CharRange} (h : Increasing ranges) (n : Nat) :
    covers ranges n = true ↔ ∃ range ∈ ranges, range.first ≤ n ∧ n ≤ range.last := by
  induction ranges with
  | nil => simp [covers]
  | cons range ranges ih =>
      obtain ⟨hne, hlater, hrest⟩ := h
      by_cases hlt : n < range.first
      · simp only [covers, hlt, ↓reduceIte, Bool.false_eq_true, List.mem_cons, false_iff]
        rintro ⟨other, rfl | hmem, hle, -⟩
        · omega
        · have := hlater other hmem
          omega
      · simp only [covers, hlt, ↓reduceIte, Bool.or_eq_true, decide_eq_true_eq, ih hrest,
          List.mem_cons, exists_eq_or_imp]
        constructor
        · rintro (hle | hmem)
          · exact Or.inl ⟨by omega, hle⟩
          · exact Or.inr hmem
        · rintro (⟨-, hle⟩ | hmem)
          · exact Or.inl hle
          · exact Or.inr hmem

end CharRange

end Calculator
