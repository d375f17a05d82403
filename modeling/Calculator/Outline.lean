/-
Outlines of syntax trees.

An outline shows a tree with one line for every node: an indentation, a branch, the kind of the
node, and the value of a token that has one.

    └──BinaryExpression
       ├──NumberExpression
       │  └──NumberToken 1
       ├──PlusToken
       └──NumberExpression
          └──NumberToken 2

* `Outline.Entry`, `Outline.Entry.line` — a node with its place in the outline, and its line;
* `Outline.Entry.below` — the places of its children;
* `Outline.lines` — the lines of pending entries, found with a stack;
* `Outline.layout` — the lines of one node and everything below it, by recursion;
* `Node.outline` — the text of the outline.
-/

import Calculator.Node

set_option relaxedAutoImplicit false
set_option autoImplicit false

namespace Calculator

namespace Outline

/-! ### One line -/

/-- A node with its place in the outline. -/
structure Entry where
  node : Node
  /-- What its line begins with. -/
  indent : String := ""
  /-- Is it the last child of the node above it? -/
  isLast : Bool := true

/-- The branch that leads to a node. -/
def branch (isLast : Bool) : String :=
  if isLast then "└──" else "├──"

/-- What the lines below a node have in the place of its branch. -/
def trunk (isLast : Bool) : String :=
  if isLast then "   " else "│  "

/-- What an outline says about a node: its kind, and the value of a token that has one. -/
def label (node : Node) : String :=
  match node with
  | .leaf { kind, value := some value, .. } => kind.name ++ " " ++ toString value
  | _ => node.kind.name

namespace Entry

/-- The line of the entry, without the line feed at its end. -/
def line (entry : Entry) : String :=
  entry.indent ++ branch entry.isLast ++ label entry.node

/-- The entries of nodes with the same indentation, the last of which is a last child. -/
def siblings (indent : String) : List Node → List Entry
  | [] => []
  | [node] => [{ node, indent, isLast := true }]
  | node :: more => { node, indent, isLast := false } :: siblings indent more

/-- The entries of the nodes directly below the entry's. -/
def below (entry : Entry) : List Entry :=
  siblings (entry.indent ++ trunk entry.isLast) entry.node.children

theorem map_node_siblings (indent : String) (nodes : List Node) :
    (siblings indent nodes).map Entry.node = nodes := by
  fun_induction siblings indent nodes with
  | case1 => rfl
  | case2 node => rfl
  | case3 node more _ ih => simp [ih]

/-- There is an entry for every child. -/
theorem map_node_below (entry : Entry) : entry.below.map Entry.node = entry.node.children :=
  map_node_siblings _ _

end Entry

/-! ### All lines -/

/-- The lines of the pending entries and of everything below them.  The children of an entry come
before the entries that were pending already. -/
def lines : List Entry → List String
  | [] => []
  | entry :: pending => entry.line :: lines (entry.below ++ pending)
termination_by pending => Node.totalSize (pending.map Entry.node)
decreasing_by
  have := Node.size_eq_totalSize_children entry.node
  simp only [List.map_append, List.map_cons, Entry.map_node_below, Node.totalSize_append,
    Node.totalSize]
  omega

/-- The lines of a node and everything below it, by recursion: first its own line, then those of
its children from left to right. -/
def layout : Node → (indent : String) → (isLast : Bool) → List String
  | .leaf token, indent, isLast => [Entry.line ⟨.leaf token, indent, isLast⟩]
  | .number token, indent, isLast =>
      let below := indent ++ trunk isLast
      Entry.line ⟨.number token, indent, isLast⟩ :: [Entry.line ⟨.leaf token, below, true⟩]
  | .binary left operator right, indent, isLast =>
      let below := indent ++ trunk isLast
      Entry.line ⟨.binary left operator right, indent, isLast⟩ ::
        (layout left below false ++ Entry.line ⟨.leaf operator, below, false⟩ ::
          layout right below true)
  | .parenthesized opening inner closing, indent, isLast =>
      let below := indent ++ trunk isLast
      Entry.line ⟨.parenthesized opening inner closing, indent, isLast⟩ ::
        Entry.line ⟨.leaf opening, below, false⟩ ::
          (layout inner below false ++ [Entry.line ⟨.leaf closing, below, true⟩])

/-- Lines as one text, with a line feed behind each. -/
def unlines (lines : List String) : String :=
  String.join (lines.map (· ++ "\n"))

end Outline

namespace Node

/-- The outline of the tree with every line behind the indentation; `isLast` chooses the branch of
the root. -/
def outline (node : Node) (indent : String := "") (isLast : Bool := true) : String :=
  Outline.unlines (Outline.lines [{ node, indent, isLast }])

end Node

end Calculator
