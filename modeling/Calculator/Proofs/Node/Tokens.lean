/-
The tokens of a tree, one for each place.

The tokens of a tree are found with a stack of pending nodes.  In every round the node on top leaves
the stack, and is either a token or makes room for its children.  So every round gets rid of one
node, and what was found together with what is still to be found does not change.  The tokens come
out in the order of their places in the tree, and each place is visited once.

* `Node.tokens_leaf`, `Node.tokens_eq_flatMap_children` — the tokens of a node against those of its
  children;
* `Node.Walk`, `Node.Walk.round`, `Node.Walk.after` — the stack on the way, one round, and several;
* `Node.Walk.total_round`, `Node.Walk.totalSize_round` — **a round changes nothing about the tokens
  in total, and leaves one node less**;
* `Node.Walk.found_after_isPrefix`, `Node.Walk.pending_after_eq_nil_iff` — what has been found after
  several rounds, and how many it takes;
* `Node.leafPaths` — the paths to the tokens, from left to right;
* `Node.mem_leafPaths_iff`, `Node.pairwise_leafPaths`, `Node.forall₂_leafPaths` — these are the
  paths to all tokens, each of them once, and a tree has its tokens there;
* `Node.tokens_flatten_children` — all this about the tokens of a tree.
-/

import Calculator.Node
import Mathlib.Data.List.Forall2
import Mathlib.Logic.Function.Iterate

set_option relaxedAutoImplicit false
set_option autoImplicit false

namespace Calculator.Node

/-! ### Tokens and children -/

/-- A token has itself below it. -/
theorem tokens_leaf (token : Token) : (leaf token).tokens = [token] :=
  tokens_eq_leaves _

/-- Any other node has the tokens of its children, one child after the other. -/
theorem tokens_eq_flatMap_children {node : Node} (h : ∀ token, node ≠ leaf token) :
    node.tokens = node.children.flatMap tokens := by
  rw [tokens_eq_leaves, leaves_eq_flatMap_children node h]
  exact List.flatMap_congr fun child _ => (tokens_eq_leaves child).symm

/-! ### Rounds -/

/-- A walk through a tree, on its way. -/
structure Walk where
  /-- The tokens found so far, the first one first. -/
  found : List Token
  /-- The nodes that are pending, the next one first. -/
  pending : List Node

namespace Walk

/-- One round: the next node is found if it is a token, and replaced by its children if it is not.
Without pending nodes there is nothing to do. -/
def round : Walk → Walk
  | { found, pending := [] } => { found, pending := [] }
  | { found, pending := leaf token :: pending } => { found := found ++ [token], pending }
  | { found, pending := node :: pending } => { found, pending := node.children ++ pending }

/-- The walk through a tree after several rounds. -/
def after (node : Node) (rounds : Nat) : Walk :=
  round^[rounds] { found := [], pending := [node] }

/-- The tokens found so far and those that will be. -/
def total (walk : Walk) : List Token :=
  walk.found ++ tokensBelow walk.pending

/-- No round loses a token or finds one twice. -/
theorem total_round (walk : Walk) : walk.round.total = walk.total := by
  obtain ⟨found, pending⟩ := walk
  cases pending with
  | nil => rfl
  | cons node pending =>
      cases node with
      | leaf token => simp [round, total, tokensBelow]
      | _ => simp [round, total, tokensBelow]

/-- Every round leaves one node less. -/
theorem totalSize_round (walk : Walk) :
    totalSize walk.round.pending = totalSize walk.pending - 1 := by
  obtain ⟨found, pending⟩ := walk
  cases pending with
  | nil => rfl
  | cons node pending =>
      have hsize := size_eq_totalSize_children node
      cases node with
      | leaf token => simp [round, totalSize, size]
      | _ =>
          simp only [round, totalSize, totalSize_append]
          omega

theorem total_iterate (rounds : Nat) (walk : Walk) : (round^[rounds] walk).total = walk.total := by
  induction rounds generalizing walk with
  | zero => rfl
  | succ rounds ih => rw [Function.iterate_succ_apply, ih, total_round]

theorem totalSize_iterate (rounds : Nat) (walk : Walk) :
    totalSize (round^[rounds] walk).pending = totalSize walk.pending - rounds := by
  induction rounds generalizing walk with
  | zero => rfl
  | succ rounds ih =>
      rw [Function.iterate_succ_apply, ih, totalSize_round, Nat.sub_sub, Nat.add_comm]

/-- At any time the tokens found so far and those to come are the tokens of the tree. -/
theorem total_after (node : Node) (rounds : Nat) : (after node rounds).total = node.tokens :=
  total_iterate rounds _

/-- The stack is empty after as many rounds as there are nodes, and not before. -/
theorem pending_after_eq_nil_iff (node : Node) (rounds : Nat) :
    (after node rounds).pending = [] ↔ node.size ≤ rounds := by
  have hsize : totalSize (after node rounds).pending = node.size - rounds :=
    totalSize_iterate rounds _
  constructor
  · intro h
    rw [h] at hsize
    simp only [totalSize] at hsize
    omega
  · intro h
    cases hpending : (after node rounds).pending with
    | nil => rfl
    | cons next pending =>
        have hnext := next.size_pos
        rw [hpending, totalSize] at hsize
        omega

/-- The tokens are found one after the other, from the first one on. -/
theorem found_after_isPrefix (node : Node) (rounds : Nat) :
    (after node rounds).found <+: node.tokens :=
  ⟨_, total_after node rounds⟩

/-- When the stack is empty all tokens have been found. -/
theorem found_after_of_pending_eq_nil {node : Node} {rounds : Nat}
    (h : (after node rounds).pending = []) : (after node rounds).found = node.tokens := by
  rw [← total_after node rounds, total, h, tokensBelow, List.append_nil]

end Walk

/-! ### Places of tokens -/

@[simp] theorem descend?_nil (node : Node) : node.descend? [] = some node := rfl

@[simp] theorem descend?_cons (node : Node) (index : Nat) (path : List Nat) :
    node.descend? (index :: path) = (node.child? index).bind (·.descend? path) := rfl

/-- The paths to the tokens below a node, from left to right. -/
def leafPaths : Node → List (List Nat)
  | leaf _ => [[]]
  | number _ => [[0]]
  | binary left _ right =>
      left.leafPaths.map (0 :: ·) ++ [1] :: right.leafPaths.map (2 :: ·)
  | parenthesized _ inner _ => [0] :: (inner.leafPaths.map (1 :: ·) ++ [[2]])

/-- There is nothing below a token. -/
theorem exists_descend?_leaf_iff (token : Token) (path : List Nat) :
    (∃ found, (leaf token).descend? path = some (leaf found)) ↔ path = [] := by
  cases path <;> simp [child?, children]

theorem mem_leafPaths_iff (node : Node) (path : List Nat) :
    path ∈ node.leafPaths ↔ ∃ token, node.descend? path = some (leaf token) := by
  induction node generalizing path with
  | leaf token => rw [exists_descend?_leaf_iff, leafPaths, List.mem_singleton]
  | number token =>
      rcases path with _ | ⟨_ | index, path⟩
      · simp [leafPaths]
      · simp [leafPaths, child?, children, exists_descend?_leaf_iff]
      · simp [leafPaths, child?, children]
  | binary left operator right ihLeft ihRight =>
      rcases path with _ | ⟨_ | _ | _ | index, path⟩
      · simp [leafPaths]
      · simp [leafPaths, child?, children, ihLeft]
      · simp [leafPaths, child?, children, exists_descend?_leaf_iff]
      · simp [leafPaths, child?, children, ihRight]
      · simp [leafPaths, child?, children]
  | parenthesized opening inner closing ih =>
      rcases path with _ | ⟨_ | _ | _ | index, path⟩
      · simp [leafPaths]
      · simp [leafPaths, child?, children, exists_descend?_leaf_iff]
      · simp [leafPaths, child?, children, ih]
      · simp [leafPaths, child?, children, exists_descend?_leaf_iff]
      · simp [leafPaths, child?, children]

/-- The paths increase from left to right, so none of them comes twice. -/
theorem pairwise_leafPaths (node : Node) : node.leafPaths.Pairwise (· < ·) := by
  induction node with
  | leaf token => exact List.pairwise_singleton _ _
  | number token => exact List.pairwise_singleton _ _
  | binary left operator right ihLeft ihRight =>
      simp [leafPaths, List.pairwise_append, List.pairwise_map, List.cons_lt_cons_iff, ihLeft,
        ihRight]
  | parenthesized opening inner closing ih =>
      refine List.pairwise_cons.2 ⟨?_, ?_⟩
      · -- whatever is not the opening token is behind a larger index
        intro path hpath
        rw [List.mem_append, List.mem_map, List.mem_singleton] at hpath
        obtain ⟨rest, -, rfl⟩ | rfl := hpath <;>
          exact List.cons_lt_cons_iff.2 (.inl (by omega))
      · simp [List.pairwise_append, List.pairwise_map, List.cons_lt_cons_iff, ih]

/-- At the places of its tokens a tree has its leaves. -/
theorem forall₂_leafPaths (node : Node) :
    List.Forall₂ (fun token path => node.descend? path = some (leaf token)) node.leaves
      node.leafPaths := by
  induction node with
  | leaf token => exact .cons rfl .nil
  | number token => exact .cons rfl .nil
  | binary left operator right ihLeft ihRight =>
      refine List.rel_append ?_ (.cons rfl ?_)
      · rw [List.forall₂_map_right_iff]
        exact ihLeft
      · rw [List.forall₂_map_right_iff]
        exact ihRight
  | parenthesized opening inner closing ih =>
      refine .cons rfl (List.rel_append ?_ (.cons rfl .nil))
      rw [List.forall₂_map_right_iff]
      exact ih

/-! ### Main result -/

/-- The tokens of a tree are those of its children, one child after the other, and a token has just
itself.  The stack finds them in this order, one round for each node of the tree, and each of them
once for each place in the tree at which it stands. -/
theorem tokens_flatten_children (node : Node) :
    (∀ token, node = leaf token → node.tokens = [token]) ∧
    ((∀ token, node ≠ leaf token) → node.tokens = node.children.flatMap tokens) ∧
    (∀ rounds,
      ((Walk.after node rounds).pending = [] ↔ node.size ≤ rounds) ∧
      (Walk.after node rounds).found <+: node.tokens ∧
      ((Walk.after node rounds).pending = [] → (Walk.after node rounds).found = node.tokens)) ∧
    ∃ paths : List (List Nat),
      paths.Pairwise (· < ·) ∧
      (∀ path, path ∈ paths ↔ ∃ token, node.descend? path = some (leaf token)) ∧
      List.Forall₂ (fun token path => node.descend? path = some (leaf token)) node.tokens
        paths := by
  refine ⟨?_, tokens_eq_flatMap_children, fun rounds => ⟨?_, ?_, ?_⟩, node.leafPaths, ?_, ?_, ?_⟩
  · rintro token rfl
    exact tokens_leaf token
  · exact Walk.pending_after_eq_nil_iff node rounds
  · exact Walk.found_after_isPrefix node rounds
  · exact Walk.found_after_of_pending_eq_nil
  · exact pairwise_leafPaths node
  · exact mem_leafPaths_iff node
  · rw [tokens_eq_leaves]
    exact forall₂_leafPaths node

/-- A sum of a bare token and an expression in parentheses: five tokens at five places, found in
eight rounds. -/
theorem tokens_flatten_children_bare :
    let sum : Node := .binary (.leaf ⟨.invalid, 0, "?", none⟩) ⟨.plus, 1, "+", none⟩
      (.parenthesized ⟨.openParenthesis, 2, "(", none⟩ (.number ⟨.number, 3, "7", some 7⟩)
        ⟨.closeParenthesis, 4, ")", none⟩)
    (∀ token, sum ≠ .leaf token) ∧ sum.tokens = sum.children.flatMap tokens ∧
      sum.tokens.map Token.text = ["?", "+", "(", "7", ")"] ∧ sum.size ≤ 8 ∧
      (Walk.after sum 8).found = sum.tokens ∧
      ∃ paths : List (List Nat), paths.length = 5 ∧ paths.Pairwise (· < ·) ∧ [2, 1, 0] ∈ paths := by
  intro sum
  have hsum : ∀ token, sum ≠ .leaf token := fun token => by simp [sum]
  have htexts : sum.tokens.map Token.text = ["?", "+", "(", "7", ")"] := by
    rw [tokens_eq_leaves]
    rfl
  have hsize : sum.size ≤ 8 := Nat.le_refl 8
  obtain ⟨-, hchildren, hrounds, paths, hordered, hplaces, htokens⟩ := tokens_flatten_children sum
  obtain ⟨hempty, -, hfound⟩ := hrounds 8
  refine ⟨hsum, hchildren hsum, htexts, hsize, hfound (hempty.2 hsize), paths, ?_, hordered, ?_⟩
  · rw [← htokens.length_eq, ← List.length_map, htexts]
    rfl
  · exact (hplaces [2, 1, 0]).2 ⟨_, rfl⟩

end Calculator.Node
