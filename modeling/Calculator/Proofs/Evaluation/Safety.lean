/-
What can come of evaluating a parsed text.

The evaluator has faults for trees that have no rule.  This module shows that the parser makes no
such tree: whatever the text, the evaluation of its tree ends with a number of the signed 32-bit
range, with a division by zero at a slash of the text, or with a number that recovery made up; and
recovery makes up nothing without noting it, so with the diagnostics as a gate only the first two
are left.

* `Outcome` — the three ways in which an evaluation may end;
* `Node.Normal.outcome` — **a normal tree ends in one of them**;
* `Parser.start_numbersInRange`, `Parser.start_missing`, `Parser.start_slash`,
  `Parser.start_clean` — what the numbers and the divisions in the tree of a text are like;
* `Settles`, `Parser.start_settles` — the ways that are left for the tree of a text;
* `evaluate_parse_safe` — the evaluation of a parsed text, with the gate and without it.
-/

import Calculator.Node.Normal
import Calculator.Proofs.Evaluation.Machine
import Calculator.Proofs.Lexer.Tokens
import Calculator.Proofs.Parser.Shape
import Calculator.Proofs.Parser.Trace

set_option relaxedAutoImplicit false
set_option autoImplicit false

namespace Calculator

open Node (Normal)

/-! ### Leaves of operations -/

namespace Node

variable {left right : Node} {operator : Token}

theorem leaves_left_subset : left.leaves ⊆ (binary left operator right).leaves :=
  List.subset_append_left _ _

theorem leaves_right_subset : right.leaves ⊆ (binary left operator right).leaves :=
  fun _ hmem => List.mem_append_right _ (List.mem_cons_of_mem _ hmem)

theorem operator_mem_leaves : operator ∈ (binary left operator right).leaves :=
  List.mem_append_right _ List.mem_cons_self

theorem leaves_inner_subset {opening closing : Token} {inner : Node} :
    inner.leaves ⊆ (parenthesized opening inner closing).leaves :=
  fun _ hmem => List.mem_cons_of_mem _ (List.mem_append_left _ hmem)

end Node

/-! ### Outcomes -/

/-- The ways in which the evaluation of a tree with the given leaves may end: with a number of the
signed 32-bit range, with a division by zero at one of the divisions, or at a number without a
value. -/
inductive Outcome (leaves : List Token) : Except EvaluationFault Int → Prop
  | value {value : Int} : Word32.InRange value → Outcome leaves (.ok value)
  | divisionByZero {operator : Token} :
      operator ∈ leaves → operator.kind = .divide →
      Outcome leaves (.error (.divisionByZero operator.position))
  | missingValue {token : Token} :
      token ∈ leaves → token.kind = .number → token.value = none →
      Outcome leaves (.error (.internal (.missingValue token.position)))

namespace Outcome

variable {leaves more : List Token} {result : Except EvaluationFault Int}

/-- What may come of some leaves may come of more leaves. -/
theorem mono (h : Outcome leaves result) (hsubset : leaves ⊆ more) : Outcome more result := by
  cases h with
  | value hrange => exact .value hrange
  | divisionByZero hmem hkind => exact .divisionByZero (hsubset hmem) hkind
  | missingValue hmem hkind hnone => exact .missingValue (hsubset hmem) hkind hnone

/-- An operation of the grammar ends with a number, or at itself with a division by zero. -/
theorem operate {operator : Token} (hmem : operator ∈ leaves)
    (hkind : operator.kind.isMultiplicative = true ∨ operator.kind.isAdditive = true)
    (left right : Int) : Outcome leaves (operator.operate left right) := by
  cases hcase : operator.kind with
  | plus | minus | multiply =>
      rw [Token.operate, hcase]
      exact .value (Word32.inRange_wrap _)
  | divide =>
      rw [Token.operate, hcase]
      by_cases hzero : right = 0
      · rw [if_pos hzero]
        exact .divisionByZero hmem hcase
      · rw [if_neg hzero]
        exact .value (Word32.inRange_wrap _)
  | _ =>
      rw [hcase] at hkind
      rcases hkind with h | h <;> cases h

/-- An operation ends as its left operand does unless that has a value, then as its right operand
does unless that has a value too. -/
theorem binary {left right : Node} {operator : Token} (hleft : Outcome left.leaves left.meaning)
    (hright : Outcome right.leaves right.meaning)
    (hkind : operator.kind.isMultiplicative = true ∨ operator.kind.isAdditive = true) :
    Outcome (Node.binary left operator right).leaves (Node.binary left operator right).meaning := by
  rw [Node.meaning]
  cases hleftMeaning : left.meaning with
  | error fault => exact (hleftMeaning ▸ hleft).mono Node.leaves_left_subset
  | ok leftValue =>
      cases hrightMeaning : right.meaning with
      | error fault => exact (hrightMeaning ▸ hright).mono Node.leaves_right_subset
      | ok rightValue => exact operate Node.operator_mem_leaves hkind leftValue rightValue

end Outcome

/-- The numbers among the tokens have no value but one of the signed 32-bit range. -/
def NumbersInRange (tokens : List Token) : Prop :=
  ∀ token ∈ tokens, token.kind = .number →
    ∀ value, token.value = some value → Word32.InRange value

theorem NumbersInRange.mono {tokens more : List Token} (h : NumbersInRange more)
    (hsubset : tokens ⊆ more) : NumbersInRange tokens :=
  fun token hmem => h token (hsubset hmem)

/-- If the numbers of a normal tree are in range, its evaluation ends in one of the three ways. -/
theorem Node.Normal.outcome {levels : Nat} {rule : Rule} {node : Node}
    (h : Normal levels rule node) (hvalues : NumbersInRange node.leaves) :
    Outcome node.leaves node.meaning := by
  induction h with
  | @number levels token hkind =>
      rw [Node.meaning, Token.number]
      cases hvalue : token.value with
      | some value => exact .value (hvalues token List.mem_cons_self hkind value hvalue)
      | none => exact .missingValue List.mem_cons_self hkind hvalue
  | parenthesized _ _ _ ih =>
      exact (ih (hvalues.mono leaves_inner_subset)).mono leaves_inner_subset
  | factor _ ih => exact ih hvalues
  | product _ hop _ ihLeft ihRight =>
      have hleft := ihLeft (hvalues.mono leaves_left_subset)
      have hright := ihRight (hvalues.mono leaves_right_subset)
      exact .binary hleft hright (.inl hop)
  | addition _ ih => exact ih hvalues
  | sum _ hop _ ihLeft ihRight =>
      have hleft := ihLeft (hvalues.mono leaves_left_subset)
      have hright := ihRight (hvalues.mono leaves_right_subset)
      exact .binary hleft hright (.inr hop)
  | expression _ ih => exact ih hvalues

/-! ### The tokens of a parsed text -/

namespace Parser

variable {text : List Char} {token : Token}

/-- A leaf of the tree of a text is a token of the text or a placeholder. -/
theorem start_leaves (h : token ∈ (start text).readAll.1.root.leaves) :
    token ∈ Segment.tokens (Segment.cut text) 0 ∨
      ∃ kind position, (kind = .number ∨ kind = .closeParenthesis) ∧
        token = Token.placeholder kind position := by
  obtain ⟨after, notes, -, htrace, -⟩ := readAll_cases (start text)
  rcases htrace.mem_or_placeholder h with hmem | hplaceholder
  · exact .inl (mem_tokens_of_mem_start hmem)
  · exact .inr hplaceholder

/-- The numbers in the tree of a text are in range. -/
theorem start_numbersInRange (text : List Char) :
    NumbersInRange (start text).readAll.1.root.leaves := by
  intro token h hkind value hvalue
  rcases start_leaves h with hmem | ⟨kind, position, -, rfl⟩
  · obtain ⟨found, hfound, hrange⟩ := Segment.value_of_mem_tokens hmem hkind
    rw [hfound, Option.some.injEq] at hvalue
    exact hvalue ▸ hrange
  · cases hvalue

/-- A number in the tree of a text that has no value is a placeholder. -/
theorem start_missing (h : token ∈ (start text).readAll.1.root.leaves)
    (hkind : token.kind = .number) (hvalue : token.value = none) :
    token = Token.placeholder .number token.position := by
  rcases start_leaves h with hmem | ⟨kind, position, -, rfl⟩
  · obtain ⟨found, hfound, -⟩ := Segment.value_of_mem_tokens hmem hkind
    rw [hfound] at hvalue
    cases hvalue
  · cases hkind
    rfl

/-- A division in the tree of a text is a slash of the text. -/
theorem start_slash (h : token ∈ (start text).readAll.1.root.leaves)
    (hkind : token.kind = .divide) :
    ∃ offset : Nat, token.position = offset ∧ text[offset]? = some '/' := by
  rcases start_leaves h with hmem | ⟨kind, position, hmissing, rfl⟩
  · exact Segment.slash_of_mem_tokens hmem hkind
  · -- no operator is ever made up
    have hdivide : kind = .divide := hkind
    rcases hmissing with rfl | rfl <;> cases hdivide

/-- If nothing is noted about a text, then no number in its tree is made up. -/
theorem start_clean (hclean : (start text).readAll.1.diagnostics = []) (position : Int) :
    Token.placeholder .number position ∉ (start text).readAll.1.root.tokens := by
  rw [Node.tokens_eq_leaves]
  intro h
  have hprefix : (start text).diagnostics.toList <+: [] :=
    hclean ▸ diagnostics_prefix_readAll (start text)
  obtain ⟨after, -, hleaves, -⟩ :=
    readAll_of_clean (hclean.trans (List.prefix_nil.1 hprefix).symm)
  -- a clean reading takes its leaves from the stream, where every number has a value
  have hmem : Token.placeholder .number position ∈ (start text).stream.tokens.toList := by
    have hupcoming : Token.placeholder .number position ∈ (start text).upcoming :=
      hleaves ▸ List.mem_append_left _ h
    exact List.mem_of_mem_drop hupcoming
  obtain ⟨value, hvalue, -⟩ :=
    Segment.value_of_mem_tokens (mem_tokens_of_mem_start (Array.mem_def.2 hmem)) rfl
  cases hvalue

/-- How the evaluation of the tree of a text may end. -/
theorem start_outcome (text : List Char) :
    Outcome (start text).readAll.1.root.leaves (start text).readAll.1.root.evaluate := by
  obtain ⟨after, notes, hreads, -, -⟩ := readAll_cases (start text)
  rw [Node.evaluate_eq_meaning]
  exact hreads.normal.outcome (start_numbersInRange text)

end Parser

/-! ### Parsed texts -/

/-- `Settles text result` says that the evaluation ended with a number of the signed 32-bit range,
or with a division by zero at a slash of the text. -/
inductive Settles (text : List Char) : Except EvaluationFault Int → Prop
  | value {value : Int} : Word32.InRange value → Settles text (.ok value)
  | divisionByZero {offset : Nat} :
      text[offset]? = some '/' → Settles text (.error (.divisionByZero offset))

namespace Settles

variable {text : List Char} {result : Except EvaluationFault Int}

theorem ne_rejected (h : Settles text result) (count : Nat) :
    result ≠ .error (.rejected count) := by
  cases h with
  | value _ => simp
  | divisionByZero _ => simp

theorem ne_internal (h : Settles text result) (fault : InternalFault) :
    result ≠ .error (.internal fault) := by
  cases h with
  | value _ => simp
  | divisionByZero _ => simp

end Settles

/-- The tree of a text evaluates to a number or ends at a slash, or else at a number that was made
up. -/
theorem Parser.start_settles (text : List Char) :
    Settles text (start text).readAll.1.root.evaluate ∨
      ∃ position, Token.placeholder .number position ∈ (start text).readAll.1.root.tokens ∧
        (start text).readAll.1.root.evaluate = .error (.internal (.missingValue position)) := by
  have houtcome := start_outcome text
  generalize (start text).readAll.1.root.evaluate = result at houtcome
  cases houtcome with
  | value hrange => exact .inl (.value hrange)
  | @divisionByZero operator hmem hkind =>
      obtain ⟨offset, hposition, hslash⟩ := start_slash hmem hkind
      rw [hposition]
      exact .inl (.divisionByZero hslash)
  | @missingValue token hmem hkind hnone =>
      refine .inr ⟨token.position, ?_, rfl⟩
      rw [Node.tokens_eq_leaves, ← start_missing hmem hkind hnone]
      exact hmem

/-- If nothing is noted about a text, then its tree evaluates to a number or ends at a slash. -/
theorem Parser.start_settles_of_clean {text : List Char}
    (hclean : (start text).readAll.1.diagnostics = []) :
    Settles text (start text).readAll.1.root.evaluate := by
  rcases start_settles text with hsettles | ⟨position, hmem, -⟩
  · exact hsettles
  · exact absurd hmem (start_clean hclean position)

/-- No parsed text reaches a fault that stands for a tree without a rule.  With the gate, evaluation
is rejected exactly if something was noted about the text, with the number of the diagnostics;
otherwise it ends with a number or a division by zero.  Without the gate it may also end at a number
that recovery made up, and only there. -/
theorem evaluate_parse_safe (text : String) (hruns : Text.DigitRunsWithin 4300 text.toList) :
    ∃ parsed, parse text = .ok parsed ∧
      (∀ count, parsed.evaluate = .error (.rejected count) ↔
        parsed.diagnostics ≠ [] ∧ count = parsed.diagnostics.length) ∧
      (parsed.diagnostics = [] → Settles text.toList parsed.evaluate) ∧
      (∀ fault, parsed.evaluate ≠ .error (.internal fault)) ∧
      (Settles text.toList parsed.root.evaluate ∨
        ∃ position fault, Token.placeholder .number position ∈ parsed.root.tokens ∧
          parsed.root.evaluate = .error (.internal fault) ∧
          fault.message = "Number token at position " ++ toString position ++ " has no value") ∧
      ((∀ position, Token.placeholder .number position ∉ parsed.root.tokens) →
        Settles text.toList parsed.root.evaluate) := by
  have hsettles := Parser.start_settles text.toList
  have hclean := @Parser.start_clean text.toList
  refine ⟨_, parse_eq hruns, ?_⟩
  generalize (Parser.start text.toList).readAll.1 = parsed at hsettles hclean
  have hgate : parsed.diagnostics ≠ [] →
      parsed.evaluate = .error (.rejected parsed.diagnostics.length) := by
    intro hne
    simp [Parsed.evaluate, Parsed.hasDiagnostics, hne]
  have hwhole : (∀ position, Token.placeholder .number position ∉ parsed.root.tokens) →
      Settles text.toList parsed.root.evaluate := by
    intro hnone
    rcases hsettles with hsettles | ⟨position, hmem, -⟩
    · exact hsettles
    · exact absurd hmem (hnone position)
  have hopen : parsed.diagnostics = [] → Settles text.toList parsed.evaluate := by
    intro hnil
    have heval : parsed.evaluate = parsed.root.evaluate := by
      simp [Parsed.evaluate, Parsed.hasDiagnostics, hnil]
    rw [heval]
    exact hwhole (hclean hnil)
  refine ⟨fun count => ⟨fun h => ?_, ?_⟩, hopen, fun fault h => ?_, ?_, hwhole⟩
  · by_cases hnil : parsed.diagnostics = []
    · exact absurd h ((hopen hnil).ne_rejected count)
    · rw [hgate hnil] at h
      cases h
      exact ⟨hnil, rfl⟩
  · rintro ⟨hne, rfl⟩
    exact hgate hne
  · by_cases hnil : parsed.diagnostics = []
    · exact (hopen hnil).ne_internal fault h
    · rw [hgate hnil] at h
      cases h
  · rcases hsettles with hsettles | ⟨position, hmem, hevaluate⟩
    · exact .inl hsettles
    · exact .inr ⟨position, _, hmem, hevaluate, rfl⟩

/-- Nothing is noted about `8 / (3 - 3)`, so its evaluation settles, here at the slash. -/
theorem evaluate_parse_safe_division :
    Text.DigitRunsWithin 4300 "8 / (3 - 3)".toList ∧
      ∃ parsed, parse "8 / (3 - 3)" = .ok parsed ∧
        Settles "8 / (3 - 3)".toList parsed.evaluate ∧
        parsed.evaluate = .error (.divisionByZero 2) := by
  have hruns : Text.DigitRunsWithin 4300 "8 / (3 - 3)".toList :=
    Text.digitRunsWithin_of_length_le (by decide)
  obtain ⟨parsed, hparse, -, hsettles, -⟩ := evaluate_parse_safe "8 / (3 - 3)" hruns
  have hresult : (parse "8 / (3 - 3)").map (fun found => (found.diagnostics, found.evaluate)) =
      .ok ([], .error (.divisionByZero 2)) := by
    decide +kernel
  rw [hparse] at hresult
  have hpair := Except.ok.inj hresult
  exact ⟨hruns, parsed, hparse, hsettles (congrArg Prod.fst hpair), congrArg Prod.snd hpair⟩

end Calculator
