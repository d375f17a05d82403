/-
What the shell has to say, line by line.

Diagnostics quote the text as it is, and the text may hold any character.  But a character that ends
a line is a blank and never reported, and what is reported of an escape character is quoted, so that
no control sequence comes about.  All other wordings are made up of names, numbers and branches.

* `Text.isPlain` — the characters that neither end a line nor open a control sequence;
* `Text.Showable` — texts that stay on one line and lose nothing on any device;
* `Text.Showable.append`, `Text.Showable.quoted` — how they are put together;
* `Text.Showable.toString_int`, `Text.Showable.name` — numbers and names;
* `Parsed.showable_message` — **everything noted about a text is showable**;
* `Outline.length_lines`, `Outline.showable_of_mem_lines` — the lines of an outline, one for each
  node, are showable;
* `Outline.feeds_unlines`, `Outline.length_brokenLines_append_unlines`, `Outline.inert_unlines` —
  lines put together.
-/

import Calculator.Outline
import Calculator.Proofs.Lexer.Tokens
import Calculator.Proofs.Parser.Trace
import Calculator.Proofs.Text.Ansi
import Calculator.Proofs.Text.Lines

set_option relaxedAutoImplicit false
set_option autoImplicit false

namespace Calculator

/-! ### Showable texts -/

namespace Text

/-- Does the character neither end a line nor open a control sequence? -/
def isPlain (c : Char) : Bool :=
  !isLineBreak c && c ≠ Ansi.escapeChar

/-- The characters of a class are plain if it holds none of those that are not. -/
theorem isPlain_of_class {p : Char → Bool}
    (hp : (Ansi.escapeChar :: lineBreaks).any p = false) {c : Char} (h : p c = true) :
    isPlain c = true := by
  have hother : c ∉ Ansi.escapeChar :: lineBreaks := fun hmem => List.any_eq_false.1 hp c hmem h
  obtain ⟨hescape, hbreak⟩ := not_or.1 (mt List.mem_cons.2 hother)
  simp [isPlain, isLineBreak, hescape, hbreak]

/-- A text is showable if it stays on one line and comes through where control sequences are
removed. -/
structure Showable (text : String) : Prop where
  unbroken : ∀ c ∈ text.toList, isLineBreak c = false
  inert : Ansi.Inert text.toList

namespace Showable

variable {text more : String}

theorem append (h : Showable text) (hmore : Showable more) : Showable (text ++ more) := by
  constructor
  · rw [String.toList_append]
    exact List.forall_mem_append.2 ⟨h.unbroken, hmore.unbroken⟩
  · rw [String.toList_append]
    exact h.inert.append hmore.inert

theorem of_isPlain (h : text.toList.all isPlain = true) : Showable text := by
  simp only [List.all_eq_true, isPlain, Bool.and_eq_true, Bool.not_eq_true',
    decide_eq_true_eq] at h
  exact ⟨fun c hc => (h c hc).1, .of_no_escape fun hmem => (h _ hmem).2 rfl⟩

theorem feeds (h : Showable text) : Feeds 0 text.toList :=
  .of_unbroken (List.any_eq_false.2 fun c hc => by simp [h.unbroken c hc])

/-- Any character that ends no line is showable in front of an apostrophe. -/
theorem quoted {c : Char} (hbefore : Showable text) (h : isLineBreak c = false) :
    Showable (text ++ String.ofList [c] ++ "'") := by
  have hquote : Showable "'" := .of_isPlain (by decide)
  constructor
  · intro d hd
    simp only [String.toList_append, String.toList_ofList, List.mem_append,
      List.mem_singleton] at hd
    rcases hd with (hd | rfl) | hd
    · exact hbefore.unbroken d hd
    · exact h
    · exact hquote.unbroken d hd
  · rw [String.toList_append, String.toList_append, String.toList_ofList, List.append_assoc]
    exact hbefore.inert.enclosed c hquote.inert (by decide)

/-- Numerals are showable. -/
theorem toString_int (value : Int) : Showable (toString value) := by
  have hdigits : ∀ n : Nat, Showable n.repr := by
    refine fun n => .of_isPlain (List.all_eq_true.2 fun c hc => ?_)
    rw [Nat.repr, String.toList_ofList] at hc
    have hdigit : c.isDigit = true := Nat.isDigit_of_mem_toDigits (by decide) (by decide) hc
    exact isPlain_of_class (by decide) hdigit
  cases value with
  | ofNat n => exact hdigits n
  | negSucc n =>
      have hsign : Showable "-" := .of_isPlain (by decide)
      exact hsign.append (hdigits n.succ)

/-- The names of kinds are showable. -/
theorem name (kind : Kind) : Showable kind.name :=
  .of_isPlain (by cases kind <;> decide +kernel)

end Showable

end Text

/-! ### Diagnostics -/

namespace Diagnostic

open Text (Showable)

theorem showable_invalidCharacter {c : Char} (h : Kind.ofChar c = .invalid) :
    Showable (invalidCharacter (String.ofList [c])).message := by
  have hopening : Showable "Invalid character input '" := .of_isPlain (by decide)
  have hblank : Text.isBlank c = false := by
    refine Bool.eq_false_iff.2 fun hblank => ?_
    exact Kind.ofChar_ne_invalid_iff.2 (.inl hblank) h
  exact hopening.quoted (Text.not_isLineBreak_of_not_isBlank hblank)

theorem showable_invalidNumber {digits : List Char} (h : ∀ c ∈ digits, Text.isDigit c = true) :
    Showable (invalidNumber (String.ofList digits)).message := by
  have hopening : Showable "Text " := .of_isPlain (by decide)
  have hclosing : Showable " is not a valid int32" := .of_isPlain (by decide)
  have hdigits : Showable (String.ofList digits) := by
    refine .of_isPlain (List.all_eq_true.2 fun c hc => Text.isPlain_of_class (by decide) (h c ?_))
    rwa [String.toList_ofList] at hc
  exact (hopening.append hdigits).append hclosing

theorem showable_unexpectedToken (expected found : Kind) :
    Showable (unexpectedToken expected found).message := by
  have hopening : Showable "Error: Unexpected token, Expected: <" := .of_isPlain (by decide)
  have hbetween : Showable "> Found: <" := .of_isPlain (by decide)
  have hclosing : Showable ">" := .of_isPlain (by decide)
  exact (((hopening.append (.name expected)).append hbetween).append (.name found)).append hclosing

theorem showable_nestingTooDeep (limit : Int) : Showable (nestingTooDeep limit).message := by
  have hopening : Showable "Error: Parentheses nested deeper than " := .of_isPlain (by decide)
  have hclosing : Showable " levels" := .of_isPlain (by decide)
  exact (hopening.append (.toString_int limit)).append hclosing

end Diagnostic

/-- What is noted about a segment is showable. -/
theorem Segment.showable_message {text : List Char} {segment : Segment} (hmem : segment ∈ cut text)
    {diagnostic : Diagnostic} (h : diagnostic ∈ segment.diagnostics) :
    Text.Showable diagnostic.message := by
  have hkind := (kind_of_mem_cut hmem).2
  rcases cases_of_mem_diagnostics h with ⟨hinvalid, rfl⟩ | ⟨hnumber, rfl⟩
  · -- every invalid character is a segment of its own, so an apostrophe follows it in the message
    obtain ⟨c, hc⟩ := eq_singleton_of_mem_cut hmem (by rw [hinvalid]; rfl)
    rw [hc] at hkind ⊢
    exact Diagnostic.showable_invalidCharacter ((hkind c List.mem_cons_self).trans hinvalid)
  · refine Diagnostic.showable_invalidNumber fun c hc => ?_
    exact Kind.ofChar_eq_number_iff.1 ((hkind c hc).trans hnumber)

/-- So is what is noted about a missing token. -/
theorem Parser.showable_complaint (kind found : Kind) :
    Text.Showable (complaint kind found).message := by
  rw [complaint]
  split
  · exact Diagnostic.showable_nestingTooDeep _
  · exact Diagnostic.showable_unexpectedToken _ _

/-- Whatever is noted about a text is showable. -/
theorem Parser.showable_message {text : List Char} {diagnostic : Diagnostic}
    (h : diagnostic ∈ (start text).readAll.1.diagnostics) :
    Text.Showable diagnostic.message := by
  obtain ⟨after, notes, -, htrace, hcases⟩ := readAll_cases (start text)
  have hnoted : diagnostic ∈ (start text).diagnostics.toList ++ notes →
      Text.Showable diagnostic.message := by
    intro hmem
    rcases List.mem_append.1 hmem with hfault | hnote
    · rw [start, Segment.faults, DiagnosticLog.toList_ofList, List.mem_flatMap] at hfault
      obtain ⟨segment, hsegment, hdiagnostic⟩ := hfault
      exact Segment.showable_message hsegment hdiagnostic
    · obtain ⟨kind, found, -, rfl⟩ := htrace.exists_complaint hnote
      exact showable_complaint kind found
  rcases hcases with ⟨-, -, hdiagnostics⟩ | ⟨-, -, hdiagnostics⟩
  · exact hnoted (hdiagnostics ▸ h)
  · rw [hdiagnostics, ← List.append_assoc, List.mem_append, List.mem_singleton] at h
    rcases h with hmem | rfl
    · exact hnoted hmem
    · exact Diagnostic.showable_unexpectedToken _ _

theorem Parsed.showable_message {text : String} {parsed : Parsed}
    (hparse : parse text = .ok parsed) {diagnostic : Diagnostic}
    (h : diagnostic ∈ parsed.diagnostics) : Text.Showable diagnostic.message := by
  rw [parse_of_readable (readable_of_parse hparse), Except.ok.injEq] at hparse
  subst hparse
  exact Parser.showable_message h

/-! ### Outlines -/

namespace Outline

open Text (Showable)

theorem showable_branch (isLast : Bool) : Showable (branch isLast) :=
  .of_isPlain (by cases isLast <;> decide)

theorem showable_trunk (isLast : Bool) : Showable (trunk isLast) :=
  .of_isPlain (by cases isLast <;> decide)

theorem showable_label (node : Node) : Showable (label node) := by
  unfold label
  split
  · have hblank : Showable " " := .of_isPlain (by decide)
    exact ((Showable.name _).append hblank).append (.toString_int _)
  · exact .name _

namespace Entry

theorem showable_line {entry : Entry} (h : Showable entry.indent) : Showable entry.line :=
  (h.append (showable_branch _)).append (showable_label _)

theorem indent_of_mem_siblings {indent : String} {nodes : List Node} {entry : Entry}
    (h : entry ∈ siblings indent nodes) : entry.indent = indent := by
  fun_induction siblings indent nodes with
  | case1 => cases h
  | case2 node => rw [List.mem_singleton.1 h]
  | case3 node more _ ih =>
      rcases List.mem_cons.1 h with rfl | hmem
      · rfl
      · exact ih hmem

theorem showable_indent_below {entry child : Entry} (h : Showable entry.indent)
    (hmem : child ∈ entry.below) : Showable child.indent := by
  rw [indent_of_mem_siblings hmem]
  exact h.append (showable_trunk _)

end Entry

/-- The lines are showable if the indentations are with which they begin. -/
theorem showable_of_mem_lines {pending : List Entry}
    (h : ∀ entry ∈ pending, Showable entry.indent) : ∀ line ∈ lines pending, Showable line := by
  fun_induction lines pending with
  | case1 => simp
  | case2 entry pending ih =>
      obtain ⟨hentry, hpending⟩ := List.forall_mem_cons.1 h
      have hbelow : ∀ child ∈ entry.below, Showable child.indent :=
        fun _ hmem => Entry.showable_indent_below hentry hmem
      refine List.forall_mem_cons.2 ⟨Entry.showable_line hentry, ih ?_⟩
      exact List.forall_mem_append.2 ⟨hbelow, hpending⟩

/-- Without an indentation every line of an outline is showable. -/
theorem showable_of_mem_outline {node : Node} {isLast : Bool} {line : String}
    (h : line ∈ lines [{ node, isLast }]) : Showable line := by
  refine showable_of_mem_lines (fun entry hmem => ?_) line h
  rw [List.mem_singleton.1 hmem]
  exact .of_isPlain (by simp)

/-- There is a line for every node. -/
theorem length_lines (pending : List Entry) :
    (lines pending).length = Node.totalSize (pending.map Entry.node) := by
  fun_induction lines pending with
  | case1 => rfl
  | case2 entry pending ih =>
      rw [List.length_cons, ih, List.map_append, Entry.map_node_below, Node.totalSize_append,
        List.map_cons, Node.totalSize, Node.size_eq_totalSize_children, Nat.add_right_comm]

/-! ### Lines put together -/

theorem unlines_cons (line : String) (more : List String) :
    unlines (line :: more) = line ++ "\n" ++ unlines more := by
  rw [unlines, List.map_cons, String.join_cons]
  rfl

/-- Lines without an end inside give as many line feeds as there are lines. -/
theorem feeds_unlines {lines : List String} (h : ∀ line ∈ lines, Text.Feeds 0 line.toList) :
    Text.Feeds lines.length (unlines lines).toList := by
  induction lines with
  | nil => exact .nil
  | cons line more ih =>
      obtain ⟨hline, hmore⟩ := List.forall_mem_cons.1 h
      rw [unlines_cons, String.toList_append, String.toList_append, List.append_assoc,
        List.length_cons, ← Nat.zero_add (more.length + 1)]
      exact hline.append (.feed (ih hmore))

theorem unlines_concat (lines : List String) (last : String) :
    unlines (lines ++ [last]) = unlines lines ++ last ++ "\n" := by
  induction lines with
  | nil => rw [List.nil_append, unlines_cons, unlines, List.map_nil, String.join_nil]; simp
  | cons line more ih =>
      rw [List.cons_append, unlines_cons, ih, unlines_cons]
      simp only [String.append_assoc]

/-- A text with lines behind it is taken apart into as many lines as there are line feeds. -/
theorem length_brokenLines_append_unlines {count : Nat} {text : List Char} {lines : List String}
    (htext : Text.Feeds count text) (hlines : ∀ line ∈ lines, Text.Feeds 0 line.toList)
    (hne : lines ≠ []) :
    (Text.brokenLines (text ++ (unlines lines).toList)).length = count + lines.length := by
  -- the last line feed is set apart, because nothing follows it that would be a further line
  obtain ⟨init, last, rfl⟩ := (List.eq_nil_or_concat' lines).resolve_left hne
  obtain ⟨hinit, hlast⟩ := List.forall_mem_append.1 hlines
  have hbody := (htext.append (feeds_unlines hinit)).append (hlast last List.mem_cons_self)
  rw [unlines_concat, String.toList_append, String.toList_append, ← List.append_assoc,
    ← List.append_assoc, List.length_append, List.length_singleton]
  exact hbody.length_brokenLines

theorem inert_unlines {lines : List String} (h : ∀ line ∈ lines, Text.Ansi.Inert line.toList) :
    Text.Ansi.Inert (unlines lines).toList := by
  induction lines with
  | nil => exact fun _ => rfl
  | cons line more ih =>
      obtain ⟨hline, hmore⟩ := List.forall_mem_cons.1 h
      rw [unlines_cons, String.toList_append, String.toList_append]
      exact (hline.append .lineFeed).append (ih hmore)

end Outline

end Calculator
