/-
Colors change how an answer looks, and nothing else.

An answer is written in pieces, and where the output is no terminal, control sequences are left out
of each piece by itself.  Characters of the line come back as they are in what is said about it, an
escape character or a bracket among them, so this is about what can happen where pieces, colors and
the text of the line meet: nothing but the colors is ever taken for a control sequence.

* `Dialect.write` — what arrives of a text where the sequences of a dialect are left out;
* `Shell.answerThrough` — an answer that is written in any way, `Shell.answer_eq_answerThrough`;
* `Shell.uncolored`, `Shell.pieces` — the shell without its colors, and the pieces of an answer;
* `Shell.leaves_pieces` — piece by piece, the colors are left out and the text is left;
* `Shell.colors_only_present` — **the answers with and without colors are the same text**.
-/

import Calculator.Proofs.Shell.Output

set_option relaxedAutoImplicit false
set_option autoImplicit false

namespace Calculator

open Text.Ansi (Dialect)

/-! ### Writing in pieces -/

namespace Text.Ansi.Dialect

/-- What arrives of a text where the control sequences of the dialect are left out. -/
def write (dialect : Dialect) (text : String) : String :=
  String.ofList (dialect.strip text.toList)

theorem write_full : full.write = Device.plain.write :=
  funext fun text => congrArg String.ofList (strip_full text.toList)

variable {dialect : Dialect}

theorem Leaves.write_eq {text plain : String} (h : dialect.Leaves text.toList plain.toList) :
    dialect.write text = plain := by
  rw [write, h.strip_eq, String.ofList_toList]

/-- Pieces that are written one by one arrive as what the dialect leaves of each. -/
theorem map_write {pieces plains : List String}
    (h : List.Forall₂ (fun piece plain => dialect.Leaves piece.toList plain.toList) pieces plains) :
    pieces.map dialect.write = plains := by
  induction h with
  | nil => rfl
  | cons hpiece _ ih => rw [List.map_cons, hpiece.write_eq, ih]

/-- Pieces that are written at once arrive as what the dialect leaves of each: no sequence begins in
one and ends in another. -/
theorem leaves_join {pieces plains : List String}
    (h : List.Forall₂ (fun piece plain => dialect.Leaves piece.toList plain.toList) pieces plains) :
    dialect.Leaves (String.join pieces).toList (String.join plains).toList := by
  induction h with
  | nil => exact fun _ => rfl
  | cons hpiece _ ih =>
      rw [String.join_cons, String.join_cons, String.toList_append, String.toList_append]
      exact hpiece.append ih

end Text.Ansi.Dialect

namespace Shell

/-! ### Answers that are written in any way -/

/-- The answer to a line that is no command, if `write` is what arrives of each piece. -/
def answerThrough (write : String → String) (shell : Shell) (line : String) : Response :=
  match parse line with
  | .error fault => { output := "", fault := some (.unreadable fault) }
  | .ok parsed =>
      match shell.verdict parsed with
      | .ok pieces => { output := String.join ((shell.display parsed ++ pieces).map write) }
      | .error fault =>
          { output := String.join ((shell.display parsed).map write)
            fault := some (.internal fault) }

theorem answer_eq_answerThrough (device : Device) (shell : Shell) (line : String) :
    shell.answer device line = shell.answerThrough device.write line :=
  rfl

/-- The shell without its colors. -/
def uncolored (shell : Shell) : Shell :=
  { shell with color := false }

/-- The pieces in which an answer is written. -/
def pieces (shell : Shell) (parsed : Parsed) : List String :=
  shell.display parsed ++ (conclusion (shell.paint .red) parsed).map (· ++ "\n")

theorem answerThrough_eq {text : String} {parsed : Parsed} (write : String → String)
    (shell : Shell) (hparse : parse text = .ok parsed) :
    shell.answerThrough write text =
      { output := String.join ((shell.pieces parsed).map write) } := by
  rw [answerThrough, hparse]
  simp only [verdict_eq shell hparse, pieces]

/-- On a terminal the pieces arrive as they are. -/
theorem answer_terminal_eq {text : String} {parsed : Parsed} (shell : Shell)
    (hparse : parse text = .ok parsed) :
    shell.answer .terminal text = { output := String.join (shell.pieces parsed) } := by
  have hwrite : Device.terminal.write = id := rfl
  rw [answer_eq_answerThrough, answerThrough_eq _ shell hparse, hwrite, List.map_id]

/-! ### What is left of the pieces -/

section Leaves

variable {dialect : Dialect} {shell : Shell}

theorem leaves_display (parsed : Parsed) :
    List.Forall₂ (fun piece plain => dialect.Leaves piece.toList plain.toList)
      (shell.display parsed) (shell.uncolored.display parsed) := by
  rw [display, display]
  by_cases hshow : shell.showTree = true
  · rw [if_pos hshow, if_pos (show shell.uncolored.showTree = true from hshow)]
    exact .cons (leaves_paint (inert_outline parsed.root)) .nil
  · rw [if_neg hshow, if_neg (show ¬shell.uncolored.showTree = true from hshow)]
    exact .nil

theorem leaves_conclusion {text : String} {parsed : Parsed} (hparse : parse text = .ok parsed) :
    List.Forall₂ (fun piece plain => dialect.Leaves piece.toList plain.toList)
      ((conclusion (shell.paint .red) parsed).map (· ++ "\n"))
      ((conclusion (shell.uncolored.paint .red) parsed).map (· ++ "\n")) := by
  have hfeed : dialect.Leaves "\n".toList "\n".toList := .of_inert .lineFeed
  rcases conclusion_cases hparse with ⟨texts, htexts, htint⟩ | ⟨value, htint⟩
  · rw [htint, htint, List.map_map, List.map_map, List.forall₂_map_left_iff,
      List.forall₂_map_right_iff, List.forall₂_same]
    intro line hline
    simp only [Function.comp_apply, String.toList_append]
    exact (leaves_paint (htexts line hline).inert).append hfeed
  · rw [htint, htint, List.forall₂_map_left_iff, List.forall₂_map_right_iff, List.forall₂_same,
      List.forall_mem_singleton, String.toList_append]
    exact .append (.of_inert (Text.Showable.toString_int value).inert) hfeed

/-- Of every piece of an answer, the piece without colors is left. -/
theorem leaves_pieces {text : String} {parsed : Parsed} (hparse : parse text = .ok parsed) :
    List.Forall₂ (fun piece plain => dialect.Leaves piece.toList plain.toList)
      (shell.pieces parsed) (shell.uncolored.pieces parsed) :=
  List.rel_append (leaves_display parsed) (leaves_conclusion hparse)

end Leaves

/-- For every line without a run of more than 4300 digits there is one text that is the answer
without colors on a terminal, the answer with and without them where control sequences are left out,
whatever dialect decides what is one, and what that dialect leaves of the answer with and without
them on a terminal. -/
theorem colors_only_present (dialect : Dialect) (shell : Shell) {line : String}
    (hruns : Text.DigitRunsWithin 4300 line.toList) :
    ∃ text shown,
      shell.uncolored.answer .terminal line = { output := text } ∧
        shell.answerThrough dialect.write line = { output := text } ∧
        shell.answer .plain line = { output := text } ∧
        shell.answer .terminal line = { output := shown } ∧ dialect.write shown = text := by
  have hparse := parse_eq hruns
  refine ⟨_, _, answer_terminal_eq shell.uncolored hparse, ?_, ?_, answer_terminal_eq shell hparse,
    (Dialect.leaves_join (leaves_pieces hparse)).write_eq⟩
  · rw [answerThrough_eq _ shell hparse, Dialect.map_write (leaves_pieces hparse)]
  · rw [answer_eq_answerThrough, ← Dialect.write_full, answerThrough_eq _ shell hparse,
      Dialect.map_write (leaves_pieces hparse)]

/-- A line that is a control sequence itself: three of its characters come back one by one. -/
theorem colors_only_present_escape :
    ∃ text shown,
      text = Outline.unlines ["└──NumberExpression", "   └──NumberToken 1",
        "Invalid character input '\x1b'", "Invalid character input '['",
        "Invalid character input 'm'"] ∧
      Shell.answerThrough Dialect.common.write { showTree := true } "\x1b[1m" = { output := text } ∧
      Shell.answer .terminal { showTree := true } "\x1b[1m" = { output := shown } ∧
      Dialect.common.write shown = text := by
  have hruns : Text.DigitRunsWithin 4300 "\x1b[1m".toList :=
    Text.digitRunsWithin_of_length_le (by decide)
  obtain ⟨text, shown, huncolored, hwritten, -, hshown, hleft⟩ :=
    colors_only_present .common { showTree := true } hruns
  refine ⟨text, shown, ?_, hwritten, hshown, hleft⟩
  refine (congrArg Response.output huncolored).symm.trans ?_
  decide +kernel

end Shell

end Calculator
