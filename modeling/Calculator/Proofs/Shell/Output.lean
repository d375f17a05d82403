/-
What the shell writes in answer to a line.

The answer to a line depends on the text of the line and on the settings of the shell, and on the
device only as far as the control sequences go that switch colors: without them it is the same text
everywhere.  It has one line for each node of the tree if outlines are shown, and below these a line
for each diagnostic, or else one line.

* `Shell.tint` — a text as it arrives if the shell shows it in a color;
* `Shell.conclusion` — the lines of an answer below the outline;
* `Shell.answer_eq` — **the output of an answer, character by character**;
* `Shell.strip_output`, `Shell.length_brokenLines_output` — the output without its colors, and the
  number of its lines;
* `Shell.Answers`, `Shell.exists_answers` — all this in one.
-/

import Calculator.Proofs.Shell.Faults
import Calculator.Proofs.Shell.Wording
import Calculator.Proofs.Text.Dialect

set_option relaxedAutoImplicit false
set_option autoImplicit false

namespace Calculator

open Text.Ansi (Color Dialect Inert strip)

/-! ### Colors -/

/-- A text that holds no part of a control sequence arrives as it is. -/
theorem Device.write_of_inert {text : String} (h : Inert text.toList) (device : Device) :
    device.write text = text := by
  cases device with
  | terminal => rfl
  | plain => rw [write, h.strip_eq, String.ofList_toList]

namespace Shell

/-- A text as it arrives if the shell shows it in the color: colored on a terminal, unless the shell
uses no colors, and elsewhere as it is. -/
def tint (device : Device) (shell : Shell) (color : Color) (text : String) : String :=
  if device = .terminal then shell.paint color text else text

variable {device : Device} {shell : Shell} {color : Color}

/-- Of a painted text any dialect leaves the text. -/
theorem leaves_paint {dialect : Dialect} {text : String} (h : Inert text.toList) :
    dialect.Leaves (shell.paint color text).toList text.toList := by
  rw [paint]
  split
  · exact .paint color h
  · exact .of_inert h

theorem strip_paint_append {text : String} (h : Inert text.toList) (rest : List Char) :
    strip ((shell.paint color text).toList ++ rest) = text.toList ++ strip rest :=
  Dialect.leaves_full_iff.1 (leaves_paint h) rest

/-- What is left of a tinted text where control sequences are removed. -/
theorem strip_tint_append {text : String} (h : Inert text.toList) (rest : List Char) :
    strip ((tint device shell color text).toList ++ rest) = text.toList ++ strip rest := by
  rw [tint]
  split
  · exact strip_paint_append h rest
  · exact h rest

/-- A painted text, with something behind it that is not painted, arrives tinted. -/
theorem write_paint_append {text more : String} (h : Inert text.toList)
    (hmore : Inert more.toList) :
    device.write (shell.paint color text ++ more) = tint device shell color text ++ more := by
  cases device with
  | terminal => rfl
  | plain =>
      rw [Device.write, String.toList_append, strip_paint_append h, hmore.strip_eq,
        ← String.toList_append, String.ofList_toList]
      rfl

/-- Colors neither add nor remove lines. -/
theorem feeds_tint {count : Nat} {text : String} (h : Text.Feeds count text.toList) :
    Text.Feeds count (tint device shell color text).toList := by
  have hpaint : Text.Feeds count (Text.Ansi.paint color text).toList := by
    have hcode : Text.Feeds 0 color.code.toList :=
      .of_unbroken (by cases color <;> decide)
    have hreset : Text.Feeds 0 Text.Ansi.reset.toList := .of_unbroken (by decide)
    rw [Text.Ansi.paint, String.toList_append, String.toList_append, ← Nat.zero_add count]
    exact (hcode.append h).append hreset
  rw [tint, paint]
  split
  · split
    · exact hpaint
    · exact h
  · exact h

/-! ### Answers -/

/-- What an answer says below the outline, line by line: everything that was noted about the text,
or else the value or that a division by zero prevents one.  A value is not tinted. -/
def conclusion (tint : String → String) (parsed : Parsed) : List String :=
  if parsed.diagnostics ≠ [] then parsed.diagnostics.map fun diagnostic => tint diagnostic.message
  else
    match parsed.root.evaluate with
    | .ok value => [toString value]
    | .error _ => [tint "Division by zero"]

theorem length_conclusion (tint : String → String) (parsed : Parsed) :
    (conclusion tint parsed).length = max 1 parsed.diagnostics.length := by
  rw [conclusion]
  split
  · next hne =>
      have hpos := List.length_pos_iff.2 hne
      rw [List.length_map]
      omega
  · next hnil =>
      rw [not_not.1 hnil]
      split <;> rfl

/-- The lines below the outline are showable, and either all of them are tinted or there is only the
value. -/
theorem conclusion_cases {text : String} {parsed : Parsed} (hparse : parse text = .ok parsed) :
    (∃ texts : List String, (∀ line ∈ texts, Text.Showable line) ∧
        ∀ tint, conclusion tint parsed = texts.map tint) ∨
      ∃ value : Int, ∀ tint, conclusion tint parsed = [toString value] := by
  by_cases hclean : parsed.diagnostics = []
  · cases hvalue : parsed.root.evaluate with
    | ok value => exact .inr ⟨value, fun tint => by simp [conclusion, hclean, hvalue]⟩
    | error fault =>
        refine .inl ⟨["Division by zero"], ?_, fun tint => by simp [conclusion, hclean, hvalue]⟩
        intro line hline
        rw [List.mem_singleton.1 hline]
        exact .of_isPlain (by decide)
  · refine .inl ⟨parsed.diagnostics.map Diagnostic.message, ?_, ?_⟩
    · intro line hline
      obtain ⟨diagnostic, hmem, rfl⟩ := List.mem_map.1 hline
      exact Parsed.showable_message hparse hmem
    · intro tint
      rw [conclusion, if_pos hclean, List.map_map]
      rfl

/-- The verdict are the lines below the outline, with red for what went wrong. -/
theorem verdict_eq {text : String} {parsed : Parsed} (shell : Shell)
    (hparse : parse text = .ok parsed) :
    shell.verdict parsed = .ok ((conclusion (shell.paint .red) parsed).map (· ++ "\n")) := by
  by_cases hclean : parsed.diagnostics = []
  · have hsettles := settles_of_parse hparse hclean
    have hopen : ¬parsed.hasDiagnostics = true := by simp [Parsed.hasDiagnostics, hclean]
    rw [verdict, if_neg hopen, conclusion, if_neg (not_not.2 hclean)]
    -- what is left are the two cases in which a text without diagnostics settles
    generalize parsed.root.evaluate = result at hsettles
    cases hsettles with
    | value => rfl
    | divisionByZero => rfl
  · rw [verdict, if_pos (by simp [Parsed.hasDiagnostics, hclean]), conclusion, if_pos hclean,
      List.map_map]
    rfl

/-- The verdict arrives as the lines below the outline. -/
theorem exists_verdict_lines {text : String} {parsed : Parsed} (device : Device) (shell : Shell)
    (hparse : parse text = .ok parsed) :
    ∃ pieces, shell.verdict parsed = .ok pieces ∧
      String.join (pieces.map device.write) =
        Outline.unlines (conclusion (tint device shell .red) parsed) := by
  refine ⟨_, verdict_eq shell hparse, ?_⟩
  rw [Outline.unlines, List.map_map]
  rcases conclusion_cases hparse with ⟨texts, htexts, htint⟩ | ⟨value, htint⟩
  · have hwrite : ∀ line ∈ texts,
        device.write (shell.paint .red line ++ "\n") = tint device shell .red line ++ "\n" :=
      fun line hline => write_paint_append (htexts line hline).inert .lineFeed
    rw [htint, htint, List.map_map, List.map_map]
    exact congrArg String.join (List.map_congr_left hwrite)
  · have hline : Inert (toString value ++ "\n").toList := by
      rw [String.toList_append]
      exact (Text.Showable.toString_int value).inert.append .lineFeed
    rw [htint, htint]
    exact congrArg (String.join [·]) (Device.write_of_inert hline device)

/-! ### Outlines -/

theorem inert_outline (node : Node) : Inert node.outline.toList :=
  Outline.inert_unlines fun _ hmem => (Outline.showable_of_mem_outline hmem).inert

theorem feeds_outline (node : Node) : Text.Feeds node.size node.outline.toList := by
  have hlength : (Outline.lines [{ node }]).length = node.size := by
    rw [Outline.length_lines]
    rfl
  rw [← hlength]
  exact Outline.feeds_unlines fun _ hmem => (Outline.showable_of_mem_outline hmem).feeds

/-! ### Whole answers -/

/-- What an answer shows of the tree, if the shell shows outlines. -/
def shownOutline (tint : String → String) (shell : Shell) (parsed : Parsed) : String :=
  if shell.showTree then tint parsed.root.outline else ""

theorem join_display (device : Device) (shell : Shell) (parsed : Parsed) :
    String.join ((shell.display parsed).map device.write) =
      shownOutline (tint device shell .gray) shell parsed := by
  rw [display, shownOutline]
  split
  · have hpaint : device.write (shell.paint .gray parsed.root.outline ++ "") =
        tint device shell .gray parsed.root.outline ++ "" :=
      write_paint_append (inert_outline parsed.root) fun _ => rfl
    simpa using hpaint
  · rfl

/-- The output of an answer. -/
theorem answer_eq {text : String} {parsed : Parsed} (device : Device) (shell : Shell)
    (hparse : parse text = .ok parsed) :
    shell.answer device text =
      { output := shownOutline (tint device shell .gray) shell parsed ++
          Outline.unlines (conclusion (tint device shell .red) parsed) } := by
  obtain ⟨pieces, hverdict, hlines⟩ := exists_verdict_lines device shell hparse
  rw [answer, hparse]
  simp only [hverdict, writeAll, List.map_append, String.join_append, join_display, hlines]

theorem strip_unlines_tint {texts : List String} (h : ∀ line ∈ texts, Text.Showable line) :
    strip (Outline.unlines (texts.map (tint device shell color))).toList =
      (Outline.unlines texts).toList := by
  induction texts with
  | nil => exact Text.Ansi.strip_nil
  | cons line more ih =>
      obtain ⟨hline, hmore⟩ := List.forall_mem_cons.1 h
      simp only [List.map_cons, Outline.unlines_cons, String.toList_append, List.append_assoc]
      rw [strip_tint_append hline.inert, Inert.lineFeed, ih hmore]

/-- Without control sequences the output is the same on every device. -/
theorem strip_output {text : String} {parsed : Parsed} (device : Device) (shell : Shell)
    (hparse : parse text = .ok parsed) :
    strip (shell.answer device text).output.toList =
      (shownOutline id shell parsed ++ Outline.unlines (conclusion id parsed)).toList := by
  have hlines : strip (Outline.unlines (conclusion (tint device shell .red) parsed)).toList =
      (Outline.unlines (conclusion id parsed)).toList := by
    rcases conclusion_cases hparse with ⟨texts, htexts, htint⟩ | ⟨value, htint⟩
    · rw [htint, htint, strip_unlines_tint htexts, List.map_id]
    · -- a value is not tinted in the first place
      rw [htint, htint]
      refine (Outline.inert_unlines fun line hline => ?_).strip_eq
      rw [List.mem_singleton.1 hline]
      exact (Text.Showable.toString_int value).inert
  rw [answer_eq device shell hparse, shownOutline, shownOutline, String.toList_append,
    String.toList_append]
  split
  · rw [strip_tint_append (inert_outline _), hlines]
    rfl
  · exact hlines

/-- The output has a line for each node that is shown, and then one for each diagnostic, or else one
line. -/
theorem length_brokenLines_output {text : String} {parsed : Parsed} (device : Device)
    (shell : Shell) (hparse : parse text = .ok parsed) :
    (Text.brokenLines (shell.answer device text).output.toList).length =
      (if shell.showTree then parsed.root.size else 0) + max 1 parsed.diagnostics.length := by
  have hlines : ∀ line ∈ conclusion (tint device shell .red) parsed, Text.Feeds 0 line.toList := by
    rcases conclusion_cases hparse with ⟨texts, htexts, htint⟩ | ⟨value, htint⟩
    · rw [htint, List.forall_mem_map]
      exact fun line hline => feeds_tint (htexts line hline).feeds
    · rw [htint, List.forall_mem_singleton]
      exact (Text.Showable.toString_int value).feeds
  have houtline : Text.Feeds (if shell.showTree then parsed.root.size else 0)
      (shownOutline (tint device shell .gray) shell parsed).toList := by
    rw [shownOutline]
    split
    · exact feeds_tint (feeds_outline _)
    · exact .nil
  have hne : conclusion (tint device shell .red) parsed ≠ [] := by
    rw [← List.length_pos_iff, length_conclusion]
    omega
  rw [answer_eq device shell hparse, String.toList_append,
    Outline.length_brokenLines_append_unlines houtline hlines hne, length_conclusion]

/-- `Answers device shell parsed response` says that the response is what the shell has to answer to
a text of which the parser makes `parsed`. -/
structure Answers (device : Device) (shell : Shell) (parsed : Parsed) (response : Response) :
    Prop where
  fault : response.fault = none
  /-- The output, with the colors that go to the device. -/
  output : response.output = shownOutline (tint device shell .gray) shell parsed ++
    Outline.unlines (conclusion (tint device shell .red) parsed)
  /-- The output without colors: the outline if it is shown, and what follows from the text. -/
  text : String.ofList (strip response.output.toList) =
    shownOutline id shell parsed ++ Outline.unlines (conclusion id parsed)
  unbroken : ∀ diagnostic ∈ parsed.diagnostics, ∀ c ∈ diagnostic.message.toList,
    Text.isLineBreak c = false
  /-- The number of its lines, wherever lines are taken to end. -/
  lines : (Text.brokenLines response.output.toList).length =
    (if shell.showTree then parsed.root.size else 0) + max 1 parsed.diagnostics.length

/-- A text without a run of more than 4300 digits is answered. -/
theorem exists_answers {text : String} (device : Device) (shell : Shell)
    (hruns : Text.DigitRunsWithin 4300 text.toList) :
    ∃ parsed, parse text = .ok parsed ∧ Answers device shell parsed (shell.answer device text) := by
  have hparse := parse_eq hruns
  refine ⟨_, hparse, fault_answer_of_parse hparse, ?_, ?_, ?_, ?_⟩
  · rw [answer_eq device shell hparse]
  · rw [strip_output device shell hparse, String.ofList_toList]
  · exact fun diagnostic hmem => (Parsed.showable_message hparse hmem).unbroken
  · exact length_brokenLines_output device shell hparse

end Shell

end Calculator
