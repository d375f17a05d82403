/-
The segments of a text, seen from its characters.

`Segment.cut` works from left to right.  This module says what comes out of it in terms of the text
alone: which characters a segment is made of, where a text may be cut in two without disturbing any
segment, and that the segments of digits are the runs of digits that no further digit extends.

* `Text.DigitRunsWithin`, `Text.MaximalDigitRun` — runs of digits in a text;
* `Kind.ofChar_eq_number_iff`, `Kind.ofChar_ne_invalid_iff` — the kinds of characters;
* `Segment.kind_of_mem_cut` — all characters of a segment have its kind;
* `Segment.cut_append` — **a text may be cut in two** unless that parts a run;
* `Segment.number_mem_cut_iff` — **the segments of digits are the maximal runs of digits**.
-/

import Calculator.Segment

set_option relaxedAutoImplicit false
set_option autoImplicit false

namespace Calculator

/-! ### Runs of digits -/

/-- No run of digits in the text is longer than the limit. -/
def Text.DigitRunsWithin (limit : Nat) (text : List Char) : Prop :=
  ∀ run, run <:+: text → (∀ c ∈ run, Text.isDigit c = true) → run.length ≤ limit

/-- A non-empty run of digits in the text with no digit before it and none behind it. -/
def Text.MaximalDigitRun (text run : List Char) : Prop :=
  run ≠ [] ∧ (∀ c ∈ run, Text.isDigit c = true) ∧
    ∃ before after, text = before ++ (run ++ after) ∧
      (∀ c, before.getLast? = some c → Text.isDigit c = false) ∧
      ∀ c, after.head? = some c → Text.isDigit c = false

/-- In a text that is not longer than the limit no run of digits is. -/
theorem Text.digitRunsWithin_of_length_le {limit : Nat} {text : List Char}
    (h : text.length ≤ limit) : Text.DigitRunsWithin limit text := by
  intro run hinfix _
  exact Nat.le_trans hinfix.length_le h

/-! ### Kinds of characters -/

namespace Kind

/-- The characters that are tokens by themselves, with the kinds of these tokens. -/
def symbols : List (Char × Kind) :=
  [('+', .plus), ('-', .minus), ('*', .multiply), ('/', .divide), ('(', .openParenthesis),
   (')', .closeParenthesis)]

/-- A character is a digit, a blank, a symbol or invalid. -/
theorem ofChar_cases (c : Char) :
    (Text.isDigit c = true ∧ ofChar c = .number) ∨
      (Text.isDigit c = false ∧ Text.isBlank c = true ∧ ofChar c = .whitespace) ∨
      (Text.isDigit c = false ∧ Text.isBlank c = false ∧ (c, ofChar c) ∈ symbols) ∨
      (Text.isDigit c = false ∧ Text.isBlank c = false ∧ c ∉ symbols.map Prod.fst ∧
        ofChar c = .invalid) := by
  cases hdigit : Text.isDigit c with
  | true => simp [ofChar, hdigit]
  | false =>
      cases hblank : Text.isBlank c with
      | true => simp [ofChar, hdigit, hblank]
      | false =>
          simp only [ofChar, hdigit, hblank, Bool.false_eq_true, ↓reduceIte]
          split <;> simp_all [symbols]

theorem ofChar_eq_number_iff {c : Char} : ofChar c = .number ↔ Text.isDigit c = true := by
  rcases ofChar_cases c with ⟨hdigit, hkind⟩ | ⟨hdigit, -, hkind⟩ | ⟨hdigit, -, hsymbol⟩ |
    ⟨hdigit, -, -, hkind⟩
  · simp [hdigit, hkind]
  · simp [hdigit, hkind]
  · rw [hdigit]
    constructor
    · intro hkind
      rw [hkind] at hsymbol
      simp [symbols] at hsymbol
    · intro h
      cases h
  · simp [hdigit, hkind]

theorem ofChar_eq_divide {c : Char} (h : ofChar c = .divide) : c = '/' := by
  rcases ofChar_cases c with ⟨-, hkind⟩ | ⟨-, -, hkind⟩ | ⟨-, -, hsymbol⟩ | ⟨-, -, -, hkind⟩
  · rw [h] at hkind
    cases hkind
  · rw [h] at hkind
    cases hkind
  · rw [h] at hsymbol
    simpa [symbols] using hsymbol
  · rw [h] at hkind
    cases hkind

/-- The characters that begin a token are the blanks, the digits and the symbols. -/
theorem ofChar_ne_invalid_iff {c : Char} :
    ofChar c ≠ .invalid ↔
      Text.isBlank c = true ∨ Text.isDigit c = true ∨ c ∈ symbols.map Prod.fst := by
  rcases ofChar_cases c with ⟨hdigit, hkind⟩ | ⟨-, hblank, hkind⟩ | ⟨-, -, hsymbol⟩ |
    ⟨hdigit, hblank, hother, hkind⟩
  · simp [hdigit, hkind]
  · simp [hblank, hkind]
  · have hmem : c ∈ symbols.map Prod.fst := List.mem_map_of_mem hsymbol
    have hkind : ofChar c ≠ .invalid := by
      intro hkind
      rw [hkind] at hsymbol
      simp [symbols] at hsymbol
    exact iff_of_true hkind (.inr (.inr hmem))
  · simp [hdigit, hblank, hother, hkind]

theorem ofChar_ne_endOfFile (c : Char) : ofChar c ≠ .endOfFile := by
  rcases ofChar_cases c with ⟨-, hkind⟩ | ⟨-, -, hkind⟩ | ⟨-, -, hsymbol⟩ | ⟨-, -, -, hkind⟩
  · simp [hkind]
  · simp [hkind]
  · intro hkind
    rw [hkind] at hsymbol
    simp [symbols] at hsymbol
  · simp [hkind]

end Kind

namespace Segment

/-! ### The characters of a segment -/

theorem kind_of_mem_run {kind : Kind} {rest : List Char} {c : Char} (h : c ∈ run kind rest) :
    Kind.ofChar c = kind := by
  by_cases hrun : kind.isRun = true
  · rw [run, if_pos hrun] at h
    exact of_decide_eq_true (List.all_eq_true.1 List.all_takeWhile c h)
  · rw [run, if_neg hrun] at h
    cases h

theorem kind_of_mem_first {c d : Char} {rest : List Char} (h : d ∈ (first c rest).text) :
    Kind.ofChar d = Kind.ofChar c := by
  rcases List.mem_cons.1 h with rfl | h
  · rfl
  · exact kind_of_mem_run h

/-- A segment is not empty, and all its characters have its kind. -/
theorem kind_of_mem_cut {text : List Char} {segment : Segment} (h : segment ∈ cut text) :
    segment.text ≠ [] ∧ ∀ c ∈ segment.text, Kind.ofChar c = segment.kind := by
  fun_induction cut text with
  | case1 => cases h
  | case2 c rest ih =>
      rcases List.mem_cons.1 h with rfl | h
      · exact ⟨List.cons_ne_nil _ _, fun d hd => kind_of_mem_first hd⟩
      · exact ih h

/-- A segment that is no run is a single character. -/
theorem eq_singleton_of_mem_cut {text : List Char} {segment : Segment} (h : segment ∈ cut text)
    (hrun : segment.kind.isRun = false) : ∃ c, segment.text = [c] := by
  fun_induction cut text with
  | case1 => cases h
  | case2 c rest ih =>
      rcases List.mem_cons.1 h with rfl | h
      · refine ⟨c, ?_⟩
        simp only [first] at hrun ⊢
        rw [run, if_neg (by simp [hrun])]
      · exact ih h

/-- Every character of the text lies in a segment. -/
theorem exists_segment_of_mem {text : List Char} {c : Char} (h : c ∈ text) :
    ∃ segment ∈ cut text, c ∈ segment.text := by
  rw [← flatten_cut text] at h
  obtain ⟨part, hpart, hc⟩ := List.mem_flatten.1 h
  obtain ⟨segment, hsegment, rfl⟩ := List.mem_map.1 hpart
  exact ⟨segment, hsegment, hc⟩

theorem infix_of_mem_cut {text : List Char} {segment : Segment} (h : segment ∈ cut text) :
    segment.text <:+: text := by
  obtain ⟨before, after, hcut⟩ := List.append_of_mem h
  refine ⟨(before.map Segment.text).flatten, (after.map Segment.text).flatten, ?_⟩
  rw [← flatten_cut text, hcut]
  simp

/-! ### Cutting a text in two -/

/-- A run goes on into the text behind it only if it comes up to there and the next character has
its kind. -/
theorem run_append {kind : Kind} {rest tail : List Char}
    (h : kind.isRun = true →
      ∀ d, tail.head? = some d → Kind.ofChar d = kind → ∃ c ∈ rest, Kind.ofChar c ≠ kind) :
    run kind (rest ++ tail) = run kind rest ∧
      afterRun kind (rest ++ tail) = afterRun kind rest ++ tail := by
  by_cases hrun : kind.isRun = true
  · simp only [run, afterRun, if_pos hrun]
    induction rest with
    | nil =>
        cases tail with
        | nil => simp
        | cons d tail =>
            have hd : ¬ Kind.ofChar d = kind := by
              intro hkind
              obtain ⟨c, hc, -⟩ := h hrun d rfl hkind
              cases hc
            simp [hd]
    | cons c rest ih =>
        by_cases hc : Kind.ofChar c = kind
        · have hrest := ih fun _ d hd hkind => by
            obtain ⟨e, he, hne⟩ := h hrun d hd hkind
            rcases List.mem_cons.1 he with rfl | he
            · exact absurd hc hne
            · exact ⟨e, he, hne⟩
          simp [hc, hrest]
        · simp [hc]
  · simp [run, afterRun, hrun]

/-- What follows the first segment ends as the text does. -/
theorem getLast?_afterFirst {c : Char} {rest : List Char} {d : Char}
    (h : (afterFirst c rest).getLast? = some d) : (c :: rest).getLast? = some d := by
  rw [← first_append_afterFirst c rest, List.getLast?_append, h]
  rfl

/-- A text may be cut in two before its segments are, unless that parts two characters of one
run. -/
theorem cut_append {before after : List Char}
    (h : ∀ c d, before.getLast? = some c → after.head? = some d →
      Kind.ofChar c = Kind.ofChar d → (Kind.ofChar c).isRun = false) :
    cut (before ++ after) = cut before ++ cut after := by
  fun_induction cut before with
  | case1 => rfl
  | case2 c rest ih =>
      have hrun : run (Kind.ofChar c) (rest ++ after) = run (Kind.ofChar c) rest ∧
          afterRun (Kind.ofChar c) (rest ++ after) = afterRun (Kind.ofChar c) rest ++ after := by
        refine run_append fun hisRun d hd hkind => ?_
        -- the last character before the cut is of another kind, so it is not `c` itself
        have hlast := List.getLast?_eq_some_getLast (List.cons_ne_nil c rest)
        have hne : Kind.ofChar ((c :: rest).getLast (List.cons_ne_nil c rest)) ≠ Kind.ofChar c := by
          intro heq
          have hsingle := h _ d hlast hd (heq.trans hkind.symm)
          rw [heq, hisRun] at hsingle
          cases hsingle
        refine ⟨_, ?_, hne⟩
        rcases List.mem_cons.1 (List.getLast_mem (List.cons_ne_nil c rest)) with heq | hmem
        · rw [heq] at hne
          exact absurd rfl hne
        · exact hmem
      rw [List.cons_append, cut_cons, first, afterFirst, hrun.1, hrun.2, List.cons_append,
        ← afterFirst, ih fun d e hd => h d e (getLast?_afterFirst hd), first]

/-! ### Runs of digits as segments -/

theorem run_of_all {kind : Kind} {rest : List Char} (hrun : kind.isRun = true)
    (h : ∀ c ∈ rest, Kind.ofChar c = kind) : run kind rest = rest ∧ afterRun kind rest = [] := by
  simp only [run, afterRun, if_pos hrun]
  induction rest with
  | nil => simp
  | cons c rest ih =>
      have hc := h c List.mem_cons_self
      have hrest := ih fun d hd => h d (List.mem_cons_of_mem _ hd)
      simp [hc, hrest]

/-- A run ends where the kind changes. -/
theorem head?_afterRun {kind : Kind} {rest : List Char} (hrun : kind.isRun = true) {d : Char}
    (h : (afterRun kind rest).head? = some d) : Kind.ofChar d ≠ kind := by
  have hstop := List.head?_dropWhile_not (fun c => decide (Kind.ofChar c = kind)) rest
  rw [afterRun, if_pos hrun] at h
  rw [h] at hstop
  exact of_decide_eq_false hstop

/-- No digit follows a segment of digits. -/
theorem not_isDigit_of_afterFirst {c d : Char} {rest : List Char}
    (h : (afterFirst c rest).head? = some d) (hc : Text.isDigit c = true) :
    Text.isDigit d = false := by
  have hkind := Kind.ofChar_eq_number_iff.2 hc
  rw [afterFirst, hkind] at h
  refine Bool.eq_false_iff.2 fun hd => ?_
  exact head?_afterRun rfl h (Kind.ofChar_eq_number_iff.2 hd)

/-- A run by itself is a single segment. -/
theorem cut_run {kind : Kind} {run : List Char} (hrun : kind.isRun = true) (hne : run ≠ [])
    (h : ∀ c ∈ run, Kind.ofChar c = kind) : cut run = [⟨kind, run⟩] := by
  cases run with
  | nil => exact absurd rfl hne
  | cons c rest =>
      have hc := h c List.mem_cons_self
      have hrest := run_of_all hrun fun d hd => h d (List.mem_cons_of_mem _ hd)
      rw [cut_cons, first, afterFirst, hc, hrest.1, hrest.2, cut_nil]

/-- A maximal run of digits behind the first segment is one of the whole text. -/
theorem maximalDigitRun_of_afterFirst {c : Char} {rest run : List Char}
    (h : Text.MaximalDigitRun (afterFirst c rest) run) : Text.MaximalDigitRun (c :: rest) run := by
  obtain ⟨hne, hdigits, before, after, htext, hbefore, hafter⟩ := h
  refine ⟨hne, hdigits, (first c rest).text ++ before, after, ?_, ?_, hafter⟩
  · rw [List.append_assoc, ← htext, first_append_afterFirst]
  · intro d hd
    rw [List.getLast?_append] at hd
    cases hlast : before.getLast? with
    | some e =>
        rw [hlast, Option.some_or] at hd
        cases hd
        exact hbefore _ hlast
    | none =>
        -- the run follows the first segment immediately, so that one does not consist of digits
        rw [hlast, Option.none_or] at hd
        have hkind := kind_of_mem_first (List.mem_of_getLast? hd)
        rw [List.getLast?_eq_none_iff.1 hlast, List.nil_append] at htext
        obtain ⟨e, more, rfl⟩ := List.exists_cons_of_ne_nil hne
        have hhead : (afterFirst c rest).head? = some e := by rw [htext]; rfl
        refine Bool.eq_false_iff.2 fun hdigit => ?_
        rw [Kind.ofChar_eq_number_iff.2 hdigit] at hkind
        have hstop := not_isDigit_of_afterFirst hhead (Kind.ofChar_eq_number_iff.1 hkind.symm)
        rw [hdigits e List.mem_cons_self] at hstop
        cases hstop

/-- A run of digits with no digit on either side is cut out of the text as it is. -/
theorem cut_around_digits {before run after : List Char} (hne : run ≠ [])
    (hdigits : ∀ c ∈ run, Text.isDigit c = true)
    (hbefore : ∀ c, before.getLast? = some c → Text.isDigit c = false)
    (hafter : ∀ c, after.head? = some c → Text.isDigit c = false) :
    cut (before ++ (run ++ after)) = cut before ++ ⟨.number, run⟩ :: cut after := by
  have hnumber := fun c hc => Kind.ofChar_eq_number_iff.2 (hdigits c hc)
  -- no digit stands on the other side of either end, so the text may be cut there
  rw [cut_append, cut_append, cut_run rfl hne hnumber, List.singleton_append]
  · intro c d hc hd hkind
    rw [hnumber c (List.mem_of_getLast? hc), eq_comm, Kind.ofChar_eq_number_iff,
      hafter d hd] at hkind
    cases hkind
  · intro c d hc hd hkind
    obtain ⟨e, more, rfl⟩ := List.exists_cons_of_ne_nil hne
    rw [List.cons_append, List.head?_cons, Option.some.injEq] at hd
    rw [← hd, hnumber e List.mem_cons_self, Kind.ofChar_eq_number_iff, hbefore c hc] at hkind
    cases hkind

/-- The segments of digits are the maximal runs of digits. -/
theorem number_mem_cut_iff {text run : List Char} :
    ⟨.number, run⟩ ∈ cut text ↔ Text.MaximalDigitRun text run := by
  constructor
  · intro h
    fun_induction cut text with
    | case1 => cases h
    | case2 c rest ih =>
        rcases List.mem_cons.1 h with heq | h
        · rw [first, Segment.mk.injEq] at heq
          obtain ⟨hkind, rfl⟩ := heq
          refine ⟨List.cons_ne_nil _ _, fun d hd => ?_, [], afterFirst c rest, ?_, ?_, ?_⟩
          · rw [← Kind.ofChar_eq_number_iff, hkind]
            exact kind_of_mem_first hd
          · exact (first_append_afterFirst c rest).symm
          · intro d hd
            cases hd
          · intro d hd
            exact not_isDigit_of_afterFirst hd (Kind.ofChar_eq_number_iff.1 hkind.symm)
        · exact maximalDigitRun_of_afterFirst (ih h)
  · rintro ⟨hne, hdigits, before, after, rfl, hbefore, hafter⟩
    rw [cut_around_digits hne hdigits hbefore hafter]
    exact List.mem_append_right _ List.mem_cons_self

end Segment

end Calculator
