/-
The lines that the shell cannot answer.

The shell shows whatever the lexer and the parser note, and a division by zero is an answer like any
other.  So the only line that it cannot answer is one that cannot be read, and then it has written
nothing.

* `Text.NumberOutOfRange` — numbers too large for the signed 32-bit range, and
  `Text.NumberOutOfRange.token_mem`, `Text.NumberOutOfRange.fault_mem` — how they are read;
* `Shell.settles_of_parse`, `Shell.exists_verdict` — **there is a verdict on every parsed text**;
* `Shell.answer_of_parse_error`, `Shell.fault_answer_eq_some_iff` — when there is no answer;
* `Shell.only_long_runs_fail` — the texts at which the lexer, the parser and the shell fail;
* `Shell.reported_unless_long_run` — every other text is parsed, and its numbers out of range are
  reported.
-/

import Calculator.Proofs.Evaluation.Safety
import Calculator.Proofs.Lexer.Overlong
import Calculator.Proofs.Text.Digit
import Calculator.Shell

set_option relaxedAutoImplicit false
set_option autoImplicit false

namespace Calculator

/-! ### Numbers out of range -/

/-- `Text.NumberOutOfRange before run after` says that in the text made up of these parts the middle
one is a maximal run of digits, and that its number is too large for the signed 32-bit range. -/
structure Text.NumberOutOfRange (before run after : List Char) : Prop where
  ne_nil : run ≠ []
  digits : ∀ c ∈ run, Text.isDigit c = true
  before_end : ∀ c, before.getLast? = some c → Text.isDigit c = false
  after_begin : ∀ c, after.head? = some c → Text.isDigit c = false
  too_large : Word32.maximum < Text.positionalValue run

namespace Text.NumberOutOfRange

variable {before run after : List Char}

theorem cut_eq (h : NumberOutOfRange before run after) :
    Segment.cut (before ++ (run ++ after)) =
      Segment.cut before ++ ⟨.number, run⟩ :: Segment.cut after :=
  Segment.cut_around_digits h.ne_nil h.digits h.before_end h.after_begin

/-- The number that the lexer reads off the digits is out of range. -/
theorem not_decimalValue_le (h : NumberOutOfRange before run after) :
    ¬(Text.decimalValue run : Int) ≤ Word32.maximum := by
  rw [Text.decimalValue_eq]
  exact Int.not_le.2 h.too_large

/-- The token of the number begins where its digits do, and it counts as zero. -/
theorem token_mem (h : NumberOutOfRange before run after) :
    ⟨.number, before.length, String.ofList run, some 0⟩ ∈
      (Segment.stream (before ++ (run ++ after))).tokens := by
  have hvalue : Segment.value ⟨.number, run⟩ = some 0 := by
    rw [Segment.value, if_pos rfl]
    exact congrArg some (if_neg h.not_decimalValue_le)
  have htoken : Segment.token ⟨.number, run⟩ before.length =
      ⟨.number, before.length, String.ofList run, some 0⟩ := by
    rw [Segment.token, hvalue]
  rw [Segment.stream, List.mem_toArray, h.cut_eq, Segment.tokens_append, Segment.totalLength_cut,
    Nat.zero_add, Segment.tokens, htoken]
  exact List.mem_append_right _ List.mem_cons_self

/-- What is noted about it. -/
theorem fault_mem (h : NumberOutOfRange before run after)
    (hreadable : Segment.Readable (before ++ (run ++ after))) :
    .invalidNumber (String.ofList run) ∈ (Segment.faults (before ++ (run ++ after))).toList := by
  have hmem : ⟨.number, run⟩ ∈ Segment.cut (before ++ (run ++ after)) := by
    rw [h.cut_eq]
    exact List.mem_append_right _ List.mem_cons_self
  have hnoted : Segment.diagnostics ⟨.number, run⟩ = [.invalidNumber (String.ofList run)] := by
    simp [Segment.diagnostics, hreadable _ hmem, h.not_decimalValue_le]
  rw [Segment.faults, DiagnosticLog.toList_ofList, List.mem_flatMap]
  exact ⟨_, hmem, hnoted ▸ List.mem_singleton_self _⟩

end Text.NumberOutOfRange

namespace Shell

/-! ### Lines that are not answered -/

variable {text : String} {device : Device} {shell : Shell}

/-- If nothing was noted about a parsed text, its tree evaluates to a number or ends at a slash. -/
theorem settles_of_parse {parsed : Parsed} (hparse : parse text = .ok parsed)
    (hclean : parsed.diagnostics = []) : Settles text.toList parsed.root.evaluate := by
  rw [parse_of_readable (readable_of_parse hparse), Except.ok.injEq] at hparse
  subst hparse
  exact Parser.start_settles_of_clean hclean

/-- Every parsed text has diagnostics to be shown, or a value, or a division by zero. -/
theorem exists_verdict (shell : Shell) {parsed : Parsed} (hparse : parse text = .ok parsed) :
    ∃ pieces, shell.verdict parsed = .ok pieces := by
  rw [verdict]
  by_cases hclean : parsed.diagnostics = []
  · rw [if_neg (by simp [Parsed.hasDiagnostics, hclean])]
    have hsettles := settles_of_parse hparse hclean
    cases hvalue : parsed.root.evaluate with
    | ok value => exact ⟨_, rfl⟩
    | error fault =>
        cases fault with
        | rejected count => exact ⟨_, rfl⟩
        | divisionByZero position => exact ⟨_, rfl⟩
        | internal cause => exact absurd hvalue (hsettles.ne_internal cause)
  · rw [if_pos (by simp [Parsed.hasDiagnostics, hclean])]
    exact ⟨_, rfl⟩

/-- A line that cannot be read is not answered at all. -/
theorem answer_of_parse_error {fault : TooManyDigits} (h : parse text = .error fault) :
    shell.answer device text = { output := "", fault := some (.unreadable fault) } := by
  rw [answer, h]

/-- Every other line is answered. -/
theorem fault_answer_of_parse {parsed : Parsed} (h : parse text = .ok parsed) :
    (shell.answer device text).fault = none := by
  obtain ⟨pieces, hverdict⟩ := exists_verdict shell h
  rw [answer, h]
  simp only [hverdict]

/-- A line that is not answered is one that cannot be read, and then nothing is written. -/
theorem fault_answer_eq_some_iff {fault : Fault} :
    (shell.answer device text).fault = some fault ↔
      ∃ cause, parse text = .error cause ∧ fault = .unreadable cause := by
  cases hparse : parse text with
  | ok parsed => simp [fault_answer_of_parse hparse]
  | error cause => simp [answer_of_parse_error hparse, eq_comm]

/-- Only a run of more than 4300 digits can make reading, parsing or answering a text fail.  Then
all three fail, and for the leftmost of these runs, whatever else is wrong with the text; the shell
has written nothing.  In any case it shows outlines afterwards as it did before. -/
theorem only_long_runs_fail (text : String) (device : Device) (shell : Shell) :
    ((∃ fault : TooManyDigits, fault.ArisesIn text.toList) ↔
        ∃ run, Text.MaximalDigitRun text.toList run ∧ 4300 < run.length) ∧
      (∀ fault, tokenize text = .error fault ↔ fault.ArisesIn text.toList) ∧
      (∀ fault, (Lexer.ofText text).readToEnd.1 = .error fault ↔ fault.ArisesIn text.toList) ∧
      (∀ fault, parse text = .error fault ↔ fault.ArisesIn text.toList) ∧
      (∀ fault, (shell.perform device (.line text)).1.fault = some fault ↔
        ∃ cause : TooManyDigits, cause.ArisesIn text.toList ∧ fault = .unreadable cause) ∧
      ((shell.perform device (.line text)).1.fault ≠ none →
        (shell.perform device (.line text)).1.output = "") ∧
      (shell.perform device (.line text)).2 = shell := by
  have hanswer : (shell.perform device (.line text)).1 = shell.answer device text := rfl
  rw [hanswer]
  refine ⟨TooManyDigits.exists_arisesIn_iff, ?_, ?_, ?_, ?_, ?_, rfl⟩
  · intro fault
    exact tokenize_eq_error_iff
  · intro fault
    exact Lexer.readToEnd_eq_error_iff.trans tokenize_eq_error_iff
  · intro fault
    exact parse_eq_error_iff.trans tokenize_eq_error_iff
  · intro fault
    simp only [fault_answer_eq_some_iff, parse_eq_error_iff, tokenize_eq_error_iff]
  · intro hfault
    obtain ⟨fault, hsome⟩ := Option.ne_none_iff_exists'.1 hfault
    obtain ⟨cause, hparse, -⟩ := fault_answer_eq_some_iff.1 hsome
    rw [answer_of_parse_error hparse]

/-- A text without a run of more than 4300 digits is parsed, and the shell answers it; no other text
is.  In such a text every number out of range counts as zero and is reported. -/
theorem reported_unless_long_run (text : String) (device : Device) (shell : Shell) :
    ((∃ parsed, parse text = .ok parsed) ↔ Text.DigitRunsWithin 4300 text.toList) ∧
      ((shell.perform device (.line text)).1.fault = none ↔
        Text.DigitRunsWithin 4300 text.toList) ∧
      ∀ stream log parsed, tokenize text = .ok (stream, log) → parse text = .ok parsed →
        ∀ before run after, text.toList = before ++ (run ++ after) →
          Text.NumberOutOfRange before run after →
            ⟨.number, before.length, String.ofList run, some 0⟩ ∈ stream.tokens ∧
              "Text " ++ String.ofList run ++ " is not a valid int32" ∈
                parsed.diagnostics.map Diagnostic.message := by
  have hparses : (∃ parsed, parse text = .ok parsed) ↔ Segment.Readable text.toList :=
    ⟨fun ⟨_, hparse⟩ => readable_of_parse hparse, fun h => ⟨_, parse_of_readable h⟩⟩
  rw [Segment.readable_iff] at hparses
  refine ⟨hparses, Iff.trans ?_ hparses, ?_⟩
  · have hanswer : (shell.perform device (.line text)).1 = shell.answer device text := rfl
    rw [hanswer]
    cases hparse : parse text with
    | ok parsed => simp [fault_answer_of_parse hparse]
    | error fault => simp [answer_of_parse_error hparse]
  · intro stream log parsed htokenize hparse before run after htext hrun
    have hreadable := readable_of_parse hparse
    rw [tokenize_of_readable hreadable, Except.ok.injEq, Prod.mk.injEq] at htokenize
    rw [parse_of_readable hreadable, Except.ok.injEq] at hparse
    obtain ⟨rfl, -⟩ := htokenize
    obtain rfl := hparse
    rw [htext] at hreadable ⊢
    refine ⟨hrun.token_mem, List.mem_map.2 ⟨.invalidNumber (String.ofList run), ?_, rfl⟩⟩
    exact (Parser.diagnostics_prefix_readAll _).subset (hrun.fault_mem hreadable)

/-- `99999999999 + 1` is parsed, with zero in the place of its first number. -/
theorem reported_unless_long_run_sum :
    ∃ stream log parsed, tokenize "99999999999 + 1" = .ok (stream, log) ∧
      parse "99999999999 + 1" = .ok parsed ∧
      ⟨.number, 0, "99999999999", some 0⟩ ∈ stream.tokens ∧
      "Text 99999999999 is not a valid int32" ∈ parsed.diagnostics.map Diagnostic.message := by
  have hruns : Text.DigitRunsWithin 4300 "99999999999 + 1".toList :=
    Text.digitRunsWithin_of_length_le (by decide)
  have hdigits : ∀ c ∈ "99999999999".toList, Text.isDigit c = true :=
    List.all_eq_true.1 (by decide +kernel)
  have hblank : Text.isDigit ' ' = false := by decide
  have hrun : Text.NumberOutOfRange [] "99999999999".toList " + 1".toList :=
    ⟨by decide, hdigits, by simp, by simpa using hblank, by decide +kernel⟩
  obtain ⟨hparses, -, hreported⟩ := reported_unless_long_run "99999999999 + 1" .plain {}
  obtain ⟨parsed, hparse⟩ := hparses.2 hruns
  have htokenize := tokenize_eq hruns
  obtain ⟨htoken, hmessage⟩ := hreported _ _ parsed htokenize hparse _ _ _ (by decide +kernel) hrun
  rw [String.ofList_toList] at htoken hmessage
  exact ⟨_, _, parsed, htokenize, hparse, htoken, hmessage⟩

/-- A number of 4301 digits is out of range like many shorter ones, but it is not reported: the text
is not parsed, and the shell does not answer it. -/
theorem long_number_unreported :
    parse (String.ofList (List.replicate 4301 '1')) = .error ⟨4301⟩ ∧
      (Shell.perform .plain {} (.line (String.ofList (List.replicate 4301 '1')))).1.fault =
        some (.unreadable ⟨4301⟩) := by
  have harises :
      TooManyDigits.ArisesIn ⟨4301⟩ (String.ofList (List.replicate 4301 '1')).toList := by
    rw [String.toList_ofList]
    refine ⟨List.replicate 4301 '1', ⟨?_, ?_, [], [], ?_, ?_, ?_, ?_⟩, ?_⟩
    · rw [List.length_replicate]
      decide
    · intro c hc
      rw [List.eq_of_mem_replicate hc]
      decide
    · rw [List.nil_append, List.append_nil]
    · exact Text.digitRunsWithin_of_length_le (Nat.zero_le _)
    · simp
    · simp
    · rw [List.length_replicate]
  have hparse := (parse_eq_error_iff.trans tokenize_eq_error_iff).2 harises
  exact ⟨hparse, fault_answer_eq_some_iff.2 ⟨_, hparse, rfl⟩⟩

end Shell

end Calculator
