/-
The run of digits at which a text becomes unreadable.

A run of very many digits cannot be read, and nothing else stops the lexer.  So a text has no tokens
exactly if it holds such a run, and then the fault is that of the leftmost one, whatever stands
before it.

* `Text.FirstLongRun` — the leftmost maximal run of digits beyond a limit;
* `Segment.exists_infix_of_digits` — **a run of digits lies in a segment**;
* `Segment.readable_iff` — the readable texts, in terms of their runs of digits;
* `Segment.find?_isOverlong_iff` — the first segment that cannot be read;
* `TooManyDigits.ArisesIn`, `tokenize_eq_error_iff`, `parse_eq_error_iff` — **when a text has no
  tokens**, and why.
-/

import Calculator.Proofs.Lexer.Session

set_option relaxedAutoImplicit false
set_option autoImplicit false

namespace Calculator

/-! ### The leftmost long run -/

/-- `FirstLongRun limit text run` says that the run is the leftmost one among the maximal runs of
digits in the text that are longer than the limit. -/
def Text.FirstLongRun (limit : Nat) (text run : List Char) : Prop :=
  limit < run.length ∧ (∀ c ∈ run, Text.isDigit c = true) ∧
    ∃ before after, text = before ++ (run ++ after) ∧ Text.DigitRunsWithin limit before ∧
      (∀ c, before.getLast? = some c → Text.isDigit c = false) ∧
      ∀ c, after.head? = some c → Text.isDigit c = false

theorem Text.FirstLongRun.maximalDigitRun {limit : Nat} {text run : List Char}
    (h : Text.FirstLongRun limit text run) : Text.MaximalDigitRun text run := by
  obtain ⟨hlong, hdigits, before, after, htext, -, hbefore, hafter⟩ := h
  refine ⟨?_, hdigits, before, after, htext, hbefore, hafter⟩
  rintro rfl
  exact absurd hlong (Nat.not_lt_zero _)

namespace Segment

variable {text run : List Char}

/-- A run of digits lies in one segment of the text. -/
theorem exists_infix_of_digits (hne : run ≠ []) (hdigits : ∀ c ∈ run, Text.isDigit c = true)
    (h : run <:+: text) : ∃ segment ∈ cut text, run <:+: segment.text := by
  fun_induction cut text with
  | case1 => exact absurd (List.infix_nil.1 h) hne
  | case2 c rest ih =>
      rw [← first_append_afterFirst c rest, List.infix_append_iff_ne_nil] at h
      rcases h with hfirst | hafter | ⟨left, right, hleft, hright, rfl, hsuffix, hprefix⟩
      · exact ⟨first c rest, List.mem_cons_self, hfirst⟩
      · obtain ⟨segment, hmem, hinfix⟩ := ih hafter
        exact ⟨segment, List.mem_cons_of_mem _ hmem, hinfix⟩
      · -- a digit behind the first segment would be one of its own
        obtain ⟨d, more, rfl⟩ := List.exists_cons_of_ne_nil hright
        obtain ⟨e, others, rfl⟩ := List.exists_cons_of_ne_nil hleft
        have hd : Text.isDigit d = true := hdigits d (by simp)
        have he : Text.isDigit e = true := hdigits e (by simp)
        have hhead : (afterFirst c rest).head? = some d := by
          obtain ⟨tail, htail⟩ := hprefix
          rw [← htail]
          rfl
        have hc := kind_of_mem_first (hsuffix.subset List.mem_cons_self)
        rw [Kind.ofChar_eq_number_iff.2 he, eq_comm, Kind.ofChar_eq_number_iff] at hc
        rw [not_isDigit_of_afterFirst hhead hc] at hd
        cases hd

/-- A text is readable exactly if no run of digits in it is too long. -/
theorem readable_iff : Readable text ↔ Text.DigitRunsWithin maxDigits text := by
  constructor
  · intro h run hinfix hdigits
    cases run with
    | nil => exact Nat.zero_le _
    | cons c run =>
        obtain ⟨segment, hmem, hlies⟩ :=
          exists_infix_of_digits (List.cons_ne_nil c run) hdigits hinfix
        have hkind := (kind_of_mem_cut hmem).2 c (hlies.subset List.mem_cons_self)
        rw [Kind.ofChar_eq_number_iff.2 (hdigits c List.mem_cons_self)] at hkind
        refine Nat.le_trans hlies.length_le (Nat.not_lt.1 fun hlong => ?_)
        exact absurd (isOverlong_iff.2 ⟨hkind.symm, hlong⟩) (by rw [h segment hmem]; decide)
  · exact fun h _ hmem => not_isOverlong h hmem

/-- The first segment that cannot be read is the leftmost run of too many digits. -/
theorem find?_isOverlong_iff {segment : Segment} :
    (cut text).find? isOverlong = some segment ↔
      segment.kind = .number ∧ Text.FirstLongRun maxDigits text segment.text := by
  constructor
  · intro h
    obtain ⟨hlong, read, unread, hcut, hread⟩ := List.find?_eq_some_iff_append.1 h
    obtain ⟨hnumber, hlength⟩ := isOverlong_iff.1 hlong
    have hwellFormed : ∀ other ∈ read ++ segment :: unread, other.WellFormed :=
      fun other hmem => wellFormed_of_mem_cut (hcut ▸ hmem)
    have hwellFormedRead : ∀ other ∈ read, other.WellFormed :=
      fun other hmem => hwellFormed other (List.mem_append_left _ hmem)
    have hapart := apart_cut text
    rw [hcut] at hapart
    obtain ⟨hapartRead, hapartRest, hjoint⟩ := List.isChain_append.1 hapart
    refine ⟨hnumber, hlength, ?_, (read.map Segment.text).flatten,
      (unread.map Segment.text).flatten, ?_, readable_iff.1 ?_, ?_, ?_⟩
    · intro c hc
      rw [← Kind.ofChar_eq_number_iff, ← hnumber]
      exact (hwellFormed segment (by simp)).kind_eq c hc
    · rw [← flatten_cut text, hcut]
      simp
    · intro other hmem
      rw [cut_flatten hwellFormedRead hapartRead] at hmem
      simpa using hread other hmem
    · -- a digit on the left would belong to a neighbour of the same kind
      intro c hc
      obtain ⟨last, hlast, hkind⟩ := kind_of_getLast?_flatten hwellFormedRead hc
      refine Bool.eq_false_iff.2 fun hdigit => ?_
      rw [Kind.ofChar_eq_number_iff.2 hdigit] at hkind
      have hrun := hjoint last hlast segment rfl (hkind.symm.trans hnumber.symm)
      rw [← hkind] at hrun
      cases hrun
    · -- and so would a digit on the right
      intro c hc
      obtain ⟨next, hnext, hkind⟩ := kind_of_head?_flatten
        (fun other hmem => hwellFormed other (by simp [hmem])) hc
      refine Bool.eq_false_iff.2 fun hdigit => ?_
      rw [Kind.ofChar_eq_number_iff.2 hdigit] at hkind
      have hrun := (List.isChain_cons.1 hapartRest).1 next hnext (hnumber.trans hkind)
      rw [hnumber] at hrun
      cases hrun
  · rintro ⟨hkind, hlong, hdigits, before, after, rfl, hwithin, hbefore, hafter⟩
    obtain ⟨kind, run⟩ := segment
    cases hkind
    have hne : run ≠ [] := by
      rintro rfl
      exact absurd hlong (Nat.not_lt_zero _)
    have hnone : (cut before).find? isOverlong = none :=
      List.find?_eq_none.2 fun other hmem => by simp [not_isOverlong hwithin hmem]
    have hoverlong : isOverlong ⟨.number, run⟩ = true := isOverlong_iff.2 ⟨rfl, hlong⟩
    rw [cut_around_digits hne hdigits hbefore hafter, List.find?_append, hnone, Option.none_or,
      List.find?_cons_of_pos hoverlong]

end Segment

/-! ### Texts without tokens -/

/-- Does the fault count the digits of the leftmost run of digits in the text that is too long to be
read? -/
def TooManyDigits.ArisesIn (fault : TooManyDigits) (text : List Char) : Prop :=
  ∃ run, Text.FirstLongRun 4300 text run ∧ fault.digits = run.length

variable {text : String} {fault : TooManyDigits}

/-- A text has no tokens exactly if it holds a run of too many digits, and the fault is that of the
leftmost one. -/
theorem tokenize_eq_error_iff : tokenize text = .error fault ↔ fault.ArisesIn text.toList := by
  have hdrain : tokenize text = .error fault ↔
      ∃ segment, (Segment.cut text.toList).find? Segment.isOverlong = some segment ∧
        fault.digits = segment.length := by
    obtain ⟨digits⟩ := fault
    rw [tokenize, Lexer.drain, Lexer.ofText]
    cases (Segment.cut text.toList).find? Segment.isOverlong with
    | none => simp
    | some segment => simp [eq_comm]
  rw [hdrain]
  constructor
  · rintro ⟨segment, hfind, hdigits⟩
    exact ⟨segment.text, (Segment.find?_isOverlong_iff.1 hfind).2, hdigits⟩
  · rintro ⟨run, hrun, hdigits⟩
    exact ⟨⟨.number, run⟩, Segment.find?_isOverlong_iff.2 ⟨rfl, hrun⟩, hdigits⟩

/-- Reading one token after the other fails exactly if the text has no tokens. -/
theorem Lexer.readToEnd_eq_error_iff :
    (Lexer.ofText text).readToEnd.1 = .error fault ↔ tokenize text = .error fault := by
  have hdrain := Lexer.drain_eq_readToEnd (Lexer.ofText text)
  have hreset : (Lexer.ofText text).reset = Lexer.ofText text := rfl
  rw [hreset] at hdrain
  rw [← hdrain, tokenize]
  cases (Lexer.ofText text).drain with
  | mk answer after => cases answer <;> simp [Except.map]

/-- A text is parsed unless it has no tokens. -/
theorem parse_eq_error_iff : parse text = .error fault ↔ tokenize text = .error fault := by
  rw [parse, Parser.ofText]
  cases tokenize text with
  | ok found => simp
  | error other => simp

/-- There is such a fault exactly if a maximal run of digits is too long. -/
theorem TooManyDigits.exists_arisesIn_iff {text : List Char} :
    (∃ fault : TooManyDigits, fault.ArisesIn text) ↔
      ∃ run, Text.MaximalDigitRun text run ∧ 4300 < run.length := by
  constructor
  · rintro ⟨fault, run, hrun, -⟩
    exact ⟨run, hrun.maximalDigitRun, hrun.1⟩
  · rintro ⟨run, hrun, hlong⟩
    have hmem := Segment.number_mem_cut_iff.2 hrun
    have hoverlong : Segment.isOverlong ⟨.number, run⟩ = true :=
      Segment.isOverlong_iff.2 ⟨rfl, hlong⟩
    obtain ⟨segment, hfind⟩ := Option.isSome_iff_exists.1 (List.find?_isSome.2 ⟨_, hmem, hoverlong⟩)
    exact ⟨⟨segment.length⟩, segment.text, (Segment.find?_isOverlong_iff.1 hfind).2, rfl⟩

end Calculator
