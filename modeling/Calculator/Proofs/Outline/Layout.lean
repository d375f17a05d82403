/-
The layout of an outline.

The lines of an outline are found with a stack of pending nodes, each of which carries its
indentation and its branch.  What comes out is the layout that a recursion on the tree would write:
the line of a node, and behind it the outlines of its children, all of them indented further and the
last of them drawn as such.

* `Node.shownValue`, `Outline.label_eq` — what a line says about its node;
* `Outline.Entry.layout_eq`, `Outline.lines_eq_flatMap_layout` — **the stack yields the layouts of
  the pending nodes**, one after the other;
* `Outline.layout_append_indent` — more indentation goes in front of every line;
* `Outline.Labels`, `Outline.labels_lines` — the lines of an outline against the nodes of the tree;
* `Outline.brokenLines_unlines` — an outline is taken apart into its lines;
* `Outline.outline_follows_recursion` — all this about the text of an outline.
-/

import Calculator.Proofs.Shell.Wording
import Mathlib.Data.List.Forall2

set_option relaxedAutoImplicit false
set_option autoImplicit false

namespace Calculator

/-! ### One line -/

/-- The value of a token that has one; other nodes have none. -/
def Node.shownValue : Node → Option Int
  | leaf token => token.value
  | _ => none

namespace Outline

/-- A line says the kind of its node, and behind it the value if there is one. -/
theorem label_eq (node : Node) :
    label node =
      node.kind.name ++
        match node.shownValue with
        | some value => " " ++ toString value
        | none => "" := by
  cases node with
  | leaf token =>
      obtain ⟨kind, position, text, value⟩ := token
      cases value with
      | none => exact (String.append_empty ..).symm
      | some value => exact String.append_assoc ..
  | _ => exact (String.append_empty ..).symm

@[simp] theorem label_number (token : Token) :
    label (.number token) = Kind.name .numberExpression := rfl

@[simp] theorem label_binary (left right : Node) (operator : Token) :
    label (.binary left operator right) = Kind.name .binaryExpression := rfl

@[simp] theorem label_parenthesized (opening closing : Token) (inner : Node) :
    label (.parenthesized opening inner closing) = Kind.name .parenthesizedExpression := rfl

/-! ### The stack -/

namespace Entry

/-- The lines of the entry and of everything below it, by recursion on the tree. -/
def layout (entry : Entry) : List String :=
  Outline.layout entry.node entry.indent entry.isLast

/-- The line of the entry comes first, and then the layouts of its children. -/
theorem layout_eq (entry : Entry) : entry.layout = entry.line :: entry.below.flatMap layout := by
  obtain ⟨node, indent, isLast⟩ := entry
  cases node <;> simp [layout, Outline.layout, below, siblings, Node.children]

/-- Of several siblings only the last one is a last child. -/
theorem map_siblings {α : Type} (f : Entry → α) (indent : String) (nodes : List Node) :
    (siblings indent nodes).map f = nodes.mapIdx fun index node =>
      f { node, indent, isLast := decide (index + 1 = nodes.length) } := by
  fun_induction siblings indent nodes with
  | case1 => rfl
  | case2 node => rfl
  | case3 node more hmore ih =>
      have hne : 0 ≠ more.length := fun hlength => hmore (List.length_eq_zero_iff.1 hlength.symm)
      simp [ih, hne]

end Entry

/-- The layout of a node is its line, and behind it the layouts of its children. -/
theorem layout_eq_cons (node : Node) (indent : String) (isLast : Bool) :
    layout node indent isLast =
      Entry.line ⟨node, indent, isLast⟩ ::
        (Entry.siblings (indent ++ trunk isLast) node.children).flatMap Entry.layout :=
  Entry.layout_eq ⟨node, indent, isLast⟩

/-- The stack yields the layouts of the pending entries, one after the other. -/
theorem lines_eq_flatMap_layout (pending : List Entry) :
    lines pending = pending.flatMap Entry.layout := by
  fun_induction lines pending with
  | case1 => rfl
  | case2 entry pending ih =>
      rw [ih, List.flatMap_append, List.flatMap_cons, Entry.layout_eq, List.cons_append]

/-! ### Indentation -/

/-- More indentation goes in front of every line. -/
theorem layout_append_indent (node : Node) (before indent : String) (isLast : Bool) :
    layout node (before ++ indent) isLast = (layout node indent isLast).map (before ++ ·) := by
  induction node generalizing indent isLast with
  | leaf token => simp [layout, Entry.line, String.append_assoc]
  | number token => simp [layout, Entry.line, String.append_assoc]
  | binary left operator right ihLeft ihRight =>
      simp [layout, Entry.line, String.append_assoc, ihLeft, ihRight]
  | parenthesized opening inner closing ih =>
      simp [layout, Entry.line, String.append_assoc, ih]

/-- A layout is the layout without indentation, with the indentation in front of every line. -/
theorem layout_eq_map (node : Node) (indent : String) (isLast : Bool) :
    layout node indent isLast = (layout node "" isLast).map (indent ++ ·) := by
  have hlayout := layout_append_indent node indent "" isLast
  rwa [String.append_empty] at hlayout

/-! ### Lines and nodes -/

/-- `Labels indent line node` says that the line shows the node: the indentation, the trunks of the
nodes above it, its branch and its label. -/
def Labels (indent line : String) (node : Node) : Prop :=
  ∃ (trunks : List Bool) (isLast : Bool),
    line = indent ++ String.join (trunks.map trunk) ++ branch isLast ++ label node

/-- The lines of pending entries show the nodes of their trees, each before its children. -/
theorem labels_lines {indent : String} {pending : List Entry}
    (h : ∀ entry ∈ pending, ∃ trunks : List Bool,
      entry.indent = indent ++ String.join (trunks.map trunk)) :
    List.Forall₂ (Labels indent) (lines pending)
      ((pending.map Entry.node).flatMap Node.preorder) := by
  fun_induction lines pending with
  | case1 => exact .nil
  | case2 entry pending ih =>
      obtain ⟨⟨trunks, htrunks⟩, hpending⟩ := List.forall_mem_cons.1 h
      have hbelow : ∀ child ∈ entry.below, ∃ trunks : List Bool,
          child.indent = indent ++ String.join (trunks.map trunk) := by
        intro child hmem
        refine ⟨trunks ++ [entry.isLast], ?_⟩
        rw [Entry.indent_of_mem_siblings hmem, htrunks]
        simp [String.append_assoc]
      rw [List.map_cons, List.flatMap_cons, Node.preorder_eq, List.cons_append]
      refine .cons ⟨trunks, entry.isLast, by rw [Entry.line, htrunks]⟩ ?_
      have hmore := ih (List.forall_mem_append.2 ⟨hbelow, hpending⟩)
      rwa [List.map_append, Entry.map_node_below, List.flatMap_append, List.flatMap_def] at hmore

/-! ### The text -/

theorem toList_unlines (lines : List String) :
    (unlines lines).toList = lines.flatMap fun line => line.toList ++ ['\n'] := by
  induction lines with
  | nil => rfl
  | cons line more ih =>
      rw [unlines_cons, String.toList_append, String.toList_append, ih]
      rfl

/-- Lines without an end inside are found again in the text that they make up. -/
theorem brokenLines_unlines {lines : List String}
    (h : ∀ line ∈ lines, ∀ c ∈ line.toList, Text.isLineBreak c = false) :
    Text.brokenLines (unlines lines).toList = lines.map String.toList := by
  induction lines with
  | nil => rfl
  | cons line more ih =>
      obtain ⟨hline, hmore⟩ := List.forall_mem_cons.1 h
      rw [toList_unlines, List.flatMap_cons, List.append_assoc, List.singleton_append,
        Text.brokenLines_append_lineFeed hline, ← toList_unlines, ih hmore, List.map_cons]

theorem unlines_append (first second : List String) :
    unlines (first ++ second) = unlines first ++ unlines second := by
  rw [unlines, List.map_append, String.join_append]
  rfl

theorem unlines_flatMap {α : Type} (lines : α → List String) (items : List α) :
    unlines (items.flatMap lines) = String.join (items.map fun item => unlines (lines item)) := by
  induction items with
  | nil => rfl
  | cons item items ih =>
      rw [List.flatMap_cons, unlines_append, ih, List.map_cons, String.join_cons]

/-- The text of an outline is the layout of the tree. -/
theorem outline_eq_unlines_layout (node : Node) (indent : String) (isLast : Bool) :
    node.outline indent isLast = unlines (layout node indent isLast) := by
  rw [Node.outline, lines_eq_flatMap_layout, List.flatMap_singleton]
  rfl

/-- The outline of a tree is the line of its root, and behind it the outlines of the children. -/
theorem outline_eq (node : Node) (indent : String) (isLast : Bool) :
    node.outline indent isLast =
      indent ++ branch isLast ++ label node ++ "\n" ++
        String.join (node.children.mapIdx fun index child =>
          child.outline (indent ++ trunk isLast) (decide (index + 1 = node.children.length))) := by
  rw [outline_eq_unlines_layout, layout_eq_cons, unlines_cons, unlines_flatMap, Entry.map_siblings]
  simp only [Entry.layout, outline_eq_unlines_layout]
  rfl

/-- Without an indentation every line of a layout is showable. -/
theorem showable_of_mem_layout {node : Node} {isLast : Bool} {line : String}
    (h : line ∈ layout node "" isLast) : Text.Showable line := by
  have hline : line ∈ lines [{ node, isLast }] := by
    rwa [lines_eq_flatMap_layout, List.flatMap_singleton]
  exact showable_of_mem_outline hline

/-- No line of a layout is broken unless the indentation is. -/
theorem unbroken_of_mem_layout {node : Node} {indent : String} {isLast : Bool}
    (hindent : ∀ c ∈ indent.toList, Text.isLineBreak c = false) :
    ∀ line ∈ layout node indent isLast, ∀ c ∈ line.toList, Text.isLineBreak c = false := by
  rw [layout_eq_map]
  simp only [List.forall_mem_map, String.toList_append, List.forall_mem_append]
  exact fun line hmem => ⟨hindent, (showable_of_mem_layout hmem).unbroken⟩

/-! ### Main result -/

/-- The outline of a tree, wherever it is indented and whichever branch leads to its root: first the
line of the root, with its indentation, its branch, its kind and the value of a token that has one;
then the outlines of its children from left to right, which are indented further, and of which only
the last one is drawn as a last child.  So an indentation stands in front of every line of the
outline without it.  If the indentation stays on one line, there is one line for each node, and the
lines show the nodes in their order, each before those below it. -/
theorem outline_follows_recursion (node : Node) (indent : String) (isLast : Bool) :
    node.outline indent isLast =
        indent ++ (if isLast then "└──" else "├──") ++
          (node.kind.name ++
            match node.shownValue with
            | some value => " " ++ toString value
            | none => "") ++ "\n" ++
          String.join (node.children.mapIdx fun index child =>
            child.outline (indent ++ if isLast then "   " else "│  ")
              (decide (index + 1 = node.children.length))) ∧
      (node.outline indent isLast).toList =
        (Text.brokenLines (node.outline "" isLast).toList).flatMap
          (fun line => indent.toList ++ line ++ ['\n']) ∧
      ((∀ c ∈ indent.toList, Text.isLineBreak c = false) →
        ∃ lines : List String,
          Text.brokenLines (node.outline indent isLast).toList = lines.map String.toList ∧
          lines.length = node.size ∧ List.Forall₂ (Labels indent) lines node.preorder) := by
  refine ⟨?_, ?_, fun hindent => ?_⟩
  · rw [outline_eq, label_eq]
    rfl
  · have hbare : ∀ line ∈ layout node "" isLast, ∀ c ∈ line.toList, Text.isLineBreak c = false :=
      fun line hmem => (showable_of_mem_layout hmem).unbroken
    rw [outline_eq_unlines_layout, outline_eq_unlines_layout, brokenLines_unlines hbare,
      layout_eq_map, toList_unlines, List.flatMap_map, List.flatMap_map]
    simp only [String.toList_append]
  · have hlabels : List.Forall₂ (Labels indent) (layout node indent isLast) node.preorder := by
      have hstart : ∀ entry ∈ [(⟨node, indent, isLast⟩ : Entry)], ∃ trunks : List Bool,
          entry.indent = indent ++ String.join (trunks.map trunk) :=
        List.forall_mem_singleton.2 ⟨[], String.append_empty.symm⟩
      have hlines := labels_lines hstart
      rwa [lines_eq_flatMap_layout, List.flatMap_singleton, List.map_singleton,
        List.flatMap_singleton] at hlines
    refine ⟨layout node indent isLast, ?_, ?_, hlabels⟩
    · rw [outline_eq_unlines_layout, brokenLines_unlines (unbroken_of_mem_layout hindent)]
    · rw [hlabels.length_eq, Node.length_preorder]

/-- A sum whose right operand is a bare token with a value: there are five nodes, and five lines,
all of them behind the indentation. -/
theorem outline_follows_recursion_indented :
    let sum : Node := .binary (.number ⟨.number, 0, "1", some 1⟩) ⟨.plus, 1, "+", none⟩
      (.leaf ⟨.invalid, 2, "?", some (-7)⟩)
    (∀ c ∈ "> ".toList, Text.isLineBreak c = false) ∧
      sum.outline "> " false =
        "> ├──BinaryExpression\n> │  ├──NumberExpression\n> │  │  └──NumberToken 1\n" ++
          "> │  ├──PlusToken\n> │  └──InvalidToken -7\n" ∧
      ∃ lines : List String,
        Text.brokenLines (sum.outline "> " false).toList = lines.map String.toList ∧
        lines.length = 5 ∧ List.Forall₂ (Labels "> ") lines sum.preorder := by
  intro sum
  have hindent : ∀ c ∈ "> ".toList, Text.isLineBreak c = false :=
    List.forall_mem_cons.2 ⟨by decide, List.forall_mem_singleton.2 (by decide)⟩
  obtain ⟨-, -, hlines⟩ := outline_follows_recursion sum "> " false
  exact ⟨hindent, by decide +kernel, hlines hindent⟩

end Outline

end Calculator
