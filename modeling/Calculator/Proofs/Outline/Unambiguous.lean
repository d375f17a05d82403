/-
Outlines are unambiguous.

An outline says of every node what it is, but not how deep it stands: that has to be read off the
columns of the branches.  The lines below a node begin with its indentation and its trunk, and the
first line behind them does not, because there is a branch in the place of the trunk or of one
further to the left.  So the lines can be taken apart into the outlines of the children, and the
whole tree can be read back, but for what an outline does not show: the texts and the offsets of the
tokens.

* `Token.eraseSource`, `Node.eraseSource` — what an outline shows of a tree;
* `Outline.label_inj`, `Node.eraseSource_eq` — a node is determined by its label and its children;
* `Outline.Outside`, `Outline.outside_siblings` — where the lines below a node end;
* `Outline.Legible`, `Outline.legible_of_children` — the lines below a node can be taken apart;
* `Outline.outline_eq_iff_eraseSource_eq` — **two trees have the same outline only if it shows the
  same of both**.
-/

import Calculator.Proofs.Outline.Layout
import Calculator.Proofs.Text.Digit

set_option relaxedAutoImplicit false
set_option autoImplicit false

namespace Calculator

/-! ### What an outline shows -/

/-- The token without the piece of text that it was read from, and without its offset. -/
def Token.eraseSource (token : Token) : Token :=
  { token with position := 0, text := "" }

/-- The tree without the texts and the offsets of its tokens. -/
def Node.eraseSource (node : Node) : Node :=
  node.mapTokens Token.eraseSource

namespace Outline

theorem name_ne_name_append (kind other : Kind) (rest : String) :
    kind.name ≠ other.name ++ (" " ++ rest) := by
  intro h
  have hspace : ' ' ∈ kind.name.toList := by
    rw [h]
    simp
  exact absurd (Kind.isAlpha_of_mem_name hspace) (by decide)

/-- A label can be taken apart into a kind and a value. -/
theorem label_inj {a b : Node} (h : label a = label b) :
    a.kind = b.kind ∧ a.shownValue = b.shownValue := by
  rw [label_eq, label_eq] at h
  cases ha : a.shownValue with
  | none =>
      cases hb : b.shownValue with
      | none =>
          simp only [ha, hb, String.append_empty] at h
          exact ⟨Kind.name_injective h, rfl⟩
      | some value =>
          simp only [ha, hb, String.append_empty] at h
          exact absurd h (name_ne_name_append _ _ _)
  | some value =>
      cases hb : b.shownValue with
      | none =>
          simp only [ha, hb, String.append_empty] at h
          exact absurd h.symm (name_ne_name_append _ _ _)
      | some other =>
          simp only [ha, hb] at h
          have htext : a.kind.name.toList ++ ' ' :: (toString value).toList =
              b.kind.name.toList ++ ' ' :: (toString other).toList := by
            simpa using congrArg String.toList h
          obtain ⟨hkind, hvalue⟩ := Kind.name_append_inj (by decide) htext
          exact ⟨hkind, congrArg some (Text.toString_int_inj (String.toList_inj.1 hvalue))⟩

end Outline

/-- A tree is determined by the label of its root and by the trees below it, as far as an outline
shows it. -/
theorem Node.eraseSource_eq {a b : Node} (hlabel : Outline.label a = Outline.label b)
    (hchildren : a.children.map eraseSource = b.children.map eraseSource) :
    a.eraseSource = b.eraseSource := by
  obtain ⟨hkind, hvalue⟩ := Outline.label_inj hlabel
  cases a <;> cases b <;>
    simp_all [kind, children, eraseSource, mapTokens, shownValue, Token.eraseSource]

namespace Outline

@[simp] theorem label_leaf_eraseSource (token : Token) :
    label (.leaf token.eraseSource) = label (.leaf token) := by
  rw [label_eq, label_eq]
  rfl

/-- What an outline does not show makes no difference to it. -/
theorem layout_eraseSource (node : Node) (indent : String) (isLast : Bool) :
    layout node.eraseSource indent isLast = layout node indent isLast := by
  rw [Node.eraseSource]
  induction node generalizing indent isLast with
  | leaf token => simp [layout, Node.mapTokens, Entry.line]
  | number token => simp [layout, Node.mapTokens, Entry.line]
  | binary left operator right ihLeft ihRight =>
      simp [layout, Node.mapTokens, Entry.line, ihLeft, ihRight]
  | parenthesized opening inner closing ih => simp [layout, Node.mapTokens, Entry.line, ih]

/-! ### Taking lines apart -/

/-- The branch in a line can be told from what stands behind it. -/
theorem branch_append_inj {first second : Bool} {rest more : String}
    (h : branch first ++ rest = branch second ++ more) : first = second ∧ rest = more := by
  rw [← String.toList_inj, String.toList_append, String.toList_append] at h
  cases first <;> cases second <;> simp_all [branch, String.toList_inj]

/-- A line behind a given indentation can be taken apart into branch and label. -/
theorem line_inj {node other : Node} {indent : String} {isLast isLastOther : Bool}
    (h : Entry.line ⟨node, indent, isLast⟩ = Entry.line ⟨other, indent, isLastOther⟩) :
    isLast = isLastOther ∧ label node = label other := by
  rw [Entry.line, Entry.line, String.append_assoc, String.append_assoc] at h
  exact branch_append_inj ((String.append_right_inj indent).1 h)

/-- A trunk never stands where there is a branch. -/
theorem not_trunk_prefix_branch (isLast : Bool) (rest : List Char) :
    ¬(trunk false).toList <+: (branch isLast).toList ++ rest := by
  cases isLast <;> simp [trunk, branch]

/-- Does the first of the lines, if there is one, begin with something else than the
indentation? -/
def Outside (indent : String) (rest : List String) : Prop :=
  ∀ line, rest.head? = some line → ¬indent.toList <+: line.toList

theorem Outside.append {indent : String} {rest : List String} (h : Outside indent rest)
    (more : String) : Outside (indent ++ more) rest := by
  intro line hline hprefix
  rw [String.toList_append] at hprefix
  exact h line hline ((List.prefix_append _ _).trans hprefix)

/-- The line of an entry begins with the indentation of the entry. -/
theorem Outside.ne_line_cons {entry : Entry} {rest more : List String}
    (h : Outside entry.indent rest) : rest ≠ entry.line :: more := by
  rintro rfl
  refine h _ rfl ?_
  rw [Entry.line, String.append_assoc, String.toList_append]
  exact List.prefix_append _ _

theorem siblings_cons (indent : String) (node : Node) (more : List Node) :
    Entry.siblings indent (node :: more) =
      { node, indent, isLast := more.isEmpty } :: Entry.siblings indent more := by
  cases more <;> rfl

/-- The lines below a node end where its next sibling begins, or else where the lines below the
node above it end. -/
theorem outside_siblings {indent : String} {rest : List String} (h : Outside indent rest)
    (nodes : List Node) :
    Outside (indent ++ trunk nodes.isEmpty)
      ((Entry.siblings indent nodes).flatMap Entry.layout ++ rest) := by
  cases nodes with
  | nil => exact h.append _
  | cons node more =>
      intro line hline hprefix
      rw [siblings_cons, List.flatMap_cons, Entry.layout_eq, List.cons_append, List.cons_append,
        List.head?_cons, Option.some.injEq] at hline
      rw [← hline, Entry.line, String.append_assoc, String.toList_append, String.toList_append,
        List.prefix_append_right_inj, String.toList_append] at hprefix
      exact not_trunk_prefix_branch _ _ hprefix

/-- `Legible node` says that the lines of the node, wherever it stands, determine the node, as far
as an outline shows it, and that it can be seen where they end. -/
def Legible (node : Node) : Prop :=
  ∀ (other : Node) (indent : String) (isLast : Bool) (rest more : List String),
    Outside (indent ++ trunk isLast) rest → Outside (indent ++ trunk isLast) more →
      layout node indent isLast ++ rest = layout other indent isLast ++ more →
        node.eraseSource = other.eraseSource ∧ rest = more

/-- The lines of siblings can be taken apart if the lines of each of them can be. -/
theorem legible_siblings {indent : String} {rest more : List String} {nodes others : List Node}
    (hlegible : ∀ node ∈ nodes, Legible node) (hrest : Outside indent rest)
    (hmore : Outside indent more)
    (h : (Entry.siblings indent nodes).flatMap Entry.layout ++ rest =
      (Entry.siblings indent others).flatMap Entry.layout ++ more) :
    nodes.map Node.eraseSource = others.map Node.eraseSource ∧ rest = more := by
  induction nodes generalizing others with
  | nil =>
      cases others with
      | nil => exact ⟨rfl, h⟩
      | cons other others =>
          rw [siblings_cons, List.flatMap_cons, Entry.layout_eq] at h
          exact absurd h (Outside.ne_line_cons hrest)
  | cons node nodes ih =>
      cases others with
      | nil =>
          rw [siblings_cons, List.flatMap_cons, Entry.layout_eq] at h
          exact absurd h.symm (Outside.ne_line_cons hmore)
      | cons other others =>
          obtain ⟨hnode, hnodes⟩ := List.forall_mem_cons.1 hlegible
          rw [siblings_cons, siblings_cons, List.flatMap_cons, List.flatMap_cons,
            List.append_assoc, List.append_assoc] at h
          -- both first lines have the same branch, so both nodes are the last or neither is
          have hlast : nodes.isEmpty = others.isEmpty := by
            rw [Entry.layout_eq, Entry.layout_eq, List.cons_append, List.cons_append,
              List.cons.injEq] at h
            exact (line_inj h.1).1
          have hbehind := outside_siblings hrest nodes
          have hother := outside_siblings hmore others
          rw [← hlast] at hother h
          obtain ⟨herase, hlater⟩ := hnode _ _ _ _ _ hbehind hother h
          obtain ⟨hsiblings, hends⟩ := ih hnodes hlater
          exact ⟨by rw [List.map_cons, List.map_cons, herase, hsiblings], hends⟩

/-- The lines of a node can be taken apart if those of its children can be. -/
theorem legible_of_children {node : Node} (h : ∀ child ∈ node.children, Legible child) :
    Legible node := by
  intro other indent isLast rest more hrest hmore heq
  rw [layout_eq_cons, layout_eq_cons, List.cons_append, List.cons_append, List.cons.injEq] at heq
  obtain ⟨hline, hbelow⟩ := heq
  obtain ⟨hchildren, hends⟩ := legible_siblings h hrest hmore hbelow
  exact ⟨Node.eraseSource_eq (line_inj hline).2 hchildren, hends⟩

/-- The lines of every node can be taken apart. -/
theorem legible (node : Node) : Legible node := by
  have hleaf : ∀ token, Legible (.leaf token) := fun token =>
    legible_of_children (by simp [Node.children])
  induction node with
  | leaf token => exact hleaf token
  | number token =>
      refine legible_of_children ?_
      simp [Node.children, hleaf]
  | binary left operator right ihLeft ihRight =>
      refine legible_of_children ?_
      simp [Node.children, hleaf, ihLeft, ihRight]
  | parenthesized opening inner closing ih =>
      refine legible_of_children ?_
      simp [Node.children, hleaf, ih]

/-! ### Main result -/

/-- Two trees have the same outline exactly if they are the same but for the texts and the offsets
of their tokens: their shape and the kinds and values of their tokens can be read back. -/
theorem outline_eq_iff_eraseSource_eq (first second : Node) :
    first.outline = second.outline ↔ first.eraseSource = second.eraseSource := by
  constructor
  · intro h
    have hunbroken : ∀ node : Node, ∀ line ∈ layout node "" true, ∀ c ∈ line.toList,
        Text.isLineBreak c = false :=
      fun node line hmem => (showable_of_mem_layout hmem).unbroken
    have hlines := congrArg (fun text => Text.brokenLines text.toList) h
    simp only [outline_eq_unlines_layout, brokenLines_unlines (hunbroken _)] at hlines
    have hlayout : layout first "" true ++ [] = layout second "" true ++ [] := by
      rw [List.append_nil, List.append_nil]
      exact List.map_injective_iff.2 (fun _ _ => String.toList_injective) hlines
    have hend : Outside ("" ++ trunk true) [] := fun line hline => by cases hline
    exact (legible first second "" true [] [] hend hend hlayout).1
  · intro h
    rw [outline_eq_unlines_layout, ← layout_eraseSource, h, layout_eraseSource,
      ← outline_eq_unlines_layout]

end Outline

end Calculator
