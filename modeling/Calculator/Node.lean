/-
Syntax trees.

An expression is a number, a binary operation or an expression in parentheses, and a syntax tree
has tokens at its leaves.  Trees that do not come from the parser may hold any token anywhere, also
a bare token in the place of an operand, so tokens are nodes of their own.

* `Node`, `Node.kind`, `Node.children` — trees, and what is at and directly below a node;
* `Node.child?`, `Node.descend?` — the nodes below, by index and by path;
* `Node.size`, `Node.totalSize` — the number of nodes of a tree and of several trees;
* `Node.preorder` — the nodes from the root on;
* `Node.tokens` — the tokens from left to right, found with a stack of pending nodes;
* `Node.leaves`, `Node.tokens_eq_leaves` — the same tokens by recursion on the tree;
* `Node.mapTokens`, `Node.erasePositions` — a tree with its tokens replaced, and without offsets.
-/

import Calculator.Token

set_option relaxedAutoImplicit false
set_option autoImplicit false

namespace Calculator

/-- A syntax tree: a bare token, a number, an operation on two operands or an expression in
parentheses. -/
inductive Node where
  | leaf (token : Token)
  | number (token : Token)
  | binary (left : Node) (operator : Token) (right : Node)
  | parenthesized (opening : Token) (inner : Node) (closing : Token)
deriving DecidableEq

namespace Node

/-! ### Shape -/

/-- The kind of the root. -/
def kind : Node → Kind
  | leaf token => token.kind
  | number _ => .numberExpression
  | binary _ _ _ => .binaryExpression
  | parenthesized _ _ _ => .parenthesizedExpression

/-- The nodes directly below the root, from left to right. -/
def children : Node → List Node
  | leaf _ => []
  | number token => [leaf token]
  | binary left operator right => [left, leaf operator, right]
  | parenthesized opening inner closing => [leaf opening, inner, leaf closing]

/-- The node directly below the root with the given index. -/
def child? (node : Node) (index : Nat) : Option Node :=
  node.children[index]?

/-- The node reached from the root by the given indices. -/
def descend? (node : Node) (path : List Nat) : Option Node :=
  path.foldlM child? node

/-- The number of nodes, tokens included. -/
def size : Node → Nat
  | leaf _ => 1
  | number _ => 2
  | binary left _ right => left.size + right.size + 2
  | parenthesized _ inner _ => inner.size + 3

/-- The number of nodes of several trees. -/
def totalSize : List Node → Nat
  | [] => 0
  | node :: nodes => node.size + totalSize nodes

/-- The nodes of the tree, each before its children and these from left to right, with `more`
behind them. -/
def preorderOnto : Node → (more : List Node) → List Node
  | leaf token, more => leaf token :: more
  | number token, more => number token :: leaf token :: more
  | binary left operator right, more =>
      binary left operator right ::
        left.preorderOnto (leaf operator :: right.preorderOnto more)
  | parenthesized opening inner closing, more =>
      parenthesized opening inner closing :: leaf opening ::
        inner.preorderOnto (leaf closing :: more)

/-- The nodes of the tree, each before its children and these from left to right. -/
def preorder (node : Node) : List Node :=
  node.preorderOnto []

theorem preorderOnto_eq (node : Node) (more : List Node) :
    node.preorderOnto more = node.preorder ++ more := by
  unfold preorder
  induction node generalizing more with
  | leaf token => rfl
  | number token => rfl
  | binary left operator right ihLeft ihRight =>
      simp only [preorderOnto]
      rw [ihLeft, ihRight, ihLeft (leaf operator :: right.preorderOnto [])]
      simp
  | parenthesized opening inner closing ih =>
      simp only [preorderOnto]
      rw [ih, ih [leaf closing]]
      simp

@[simp] theorem preorder_leaf (token : Token) : (leaf token).preorder = [leaf token] := rfl

/-- A node comes first, then everything below its children, one child after the other. -/
theorem preorder_eq (node : Node) :
    node.preorder = node :: (node.children.map preorder).flatten := by
  cases node with
  | leaf token => rfl
  | number token => rfl
  | binary left operator right =>
      change _ :: left.preorderOnto (leaf operator :: right.preorder) = _
      simp [preorderOnto_eq, children]
  | parenthesized opening inner closing =>
      change _ :: leaf opening :: inner.preorderOnto [leaf closing] = _
      simp [preorderOnto_eq, children]

theorem size_pos (node : Node) : 0 < node.size := by
  cases node <;> simp [size]

@[simp] theorem totalSize_append (first second : List Node) :
    totalSize (first ++ second) = totalSize first + totalSize second := by
  induction first with
  | nil => simp [totalSize]
  | cons node nodes ih => simp [totalSize, ih, Nat.add_assoc]

/-- The root is one node more than there are below it. -/
theorem size_eq_totalSize_children (node : Node) : node.size = totalSize node.children + 1 := by
  cases node <;> simp [size, children, totalSize] <;> omega

@[simp] theorem length_preorder (node : Node) : node.preorder.length = node.size := by
  induction node with
  | leaf token => rfl
  | number token => rfl
  | binary left operator right ihLeft ihRight =>
      rw [preorder_eq]
      simp [children, size, ihLeft, ihRight]
      omega
  | parenthesized opening inner closing ih =>
      rw [preorder_eq]
      simp [children, size, ih]

/-! ### Tokens -/

/-- The tokens below the pending nodes, the first of which comes next. -/
def tokensBelow : List Node → List Token
  | [] => []
  | leaf token :: pending => token :: tokensBelow pending
  | node :: pending => tokensBelow (node.children ++ pending)
termination_by pending => totalSize pending
decreasing_by
  · simp [totalSize, size]
  · have := size_eq_totalSize_children node
    simp only [totalSize_append, totalSize]
    omega

/-- The tokens of the tree from left to right. -/
def tokens (node : Node) : List Token :=
  tokensBelow [node]

/-- The tokens of the tree from left to right, by recursion: a token is its own, and any other node
has those of its children one after the other. -/
def leaves : Node → List Token
  | leaf token => [token]
  | number token => [token]
  | binary left operator right => left.leaves ++ operator :: right.leaves
  | parenthesized opening inner closing => opening :: (inner.leaves ++ [closing])

theorem leaves_eq_flatMap_children (node : Node) (h : ∀ token, node ≠ leaf token) :
    node.leaves = node.children.flatMap leaves := by
  cases node with
  | leaf token => exact absurd rfl (h token)
  | number token => rfl
  | binary left operator right => simp [leaves, children]
  | parenthesized opening inner closing => simp [leaves, children]

/-- The stack yields the leaves of the pending nodes, one node after the other. -/
theorem tokensBelow_eq (pending : List Node) : tokensBelow pending = pending.flatMap leaves := by
  fun_induction tokensBelow pending with
  | case1 => rfl
  | case2 token pending ih => rw [ih, List.flatMap_cons, leaves, List.singleton_append]
  | case3 node pending h ih =>
      rw [ih, List.flatMap_append, List.flatMap_cons, leaves_eq_flatMap_children node h]

/-- The tokens found with the stack are the leaves. -/
theorem tokens_eq_leaves (node : Node) : node.tokens = node.leaves := by
  rw [tokens, tokensBelow_eq, List.flatMap_cons, List.flatMap_nil, List.append_nil]

/-- The tree with every token replaced. -/
def mapTokens (f : Token → Token) : Node → Node
  | leaf token => leaf (f token)
  | number token => number (f token)
  | binary left operator right => binary (left.mapTokens f) (f operator) (right.mapTokens f)
  | parenthesized opening inner closing =>
      parenthesized (f opening) (inner.mapTokens f) (f closing)

@[simp] theorem mapTokens_id (node : Node) : node.mapTokens id = node := by
  induction node with
  | leaf token => rfl
  | number token => rfl
  | binary left operator right ihLeft ihRight => rw [mapTokens, ihLeft, ihRight, id]
  | parenthesized opening inner closing ih => rw [mapTokens, ih, id, id]

/-- The tree without the offsets of its tokens. -/
def erasePositions (node : Node) : Node :=
  node.mapTokens Token.erasePosition

end Node

end Calculator
