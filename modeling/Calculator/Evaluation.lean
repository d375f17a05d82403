/-
Evaluation.

The value of a tree is computed with signed 32-bit arithmetic, the left operand of an operation
before the right one and both before the operation itself.  The first fault ends the computation.
A machine with a stack of tasks and a stack of values does the work, so that the depth of a tree,
which grows with the length of a sum, does not matter.

* `EvaluationFault`, `InternalFault` — why a tree has no value;
* `Machine.Task`, `Machine.State`, `Machine.step`, `Machine.run` — the machine;
* `Node.evaluate` — the value of a tree, by the machine;
* `Node.meaning` — the value of a tree, by recursion on it;
* `Parsed.evaluate` — the value of a text without diagnostics.
-/

import Calculator.Parsed
import Calculator.Word32

set_option relaxedAutoImplicit false
set_option autoImplicit false

namespace Calculator

/-! ### Faults -/

/-- A tree for which there is no rule.  The parser makes no such tree unless it also notes a
diagnostic. -/
inductive InternalFault where
  | unexpectedNode (kind : Kind)
  | unexpectedOperator (kind : Kind)
  /-- A number without a value, at the given offset. -/
  | missingValue (position : Int)
  /-- An operation with too few values on the machine's stack. -/
  | missingOperand
deriving DecidableEq

/-- The wording of the fault. -/
def InternalFault.message : InternalFault → String
  | unexpectedNode kind => "Unexpected node " ++ kind.name
  | unexpectedOperator kind => "Unexpected binary operator " ++ kind.name
  | missingValue position => "Number token at position " ++ toString position ++ " has no value"
  | missingOperand => "Operand missing"

/-- Why a tree has no value. -/
inductive EvaluationFault where
  | rejected (diagnostics : Nat)
  /-- The right operand of the division at the given offset is zero. -/
  | divisionByZero (position : Int)
  | internal (fault : InternalFault)
deriving DecidableEq

/-- The wording of the fault. -/
def EvaluationFault.message : EvaluationFault → String
  | rejected diagnostics =>
      "Cannot evaluate an expression with " ++ toString diagnostics ++ " diagnostic(s)"
  | divisionByZero _ => "Division by zero"
  | internal fault => fault.message

/-! ### Single steps -/

namespace Token

/-- The number that the token stands for. -/
def number (token : Token) : Except EvaluationFault Int :=
  match token.value with
  | some value => .ok value
  | none => .error (.internal (.missingValue token.position))

/-- The result of the operation that the token stands for. -/
def operate (operator : Token) (left right : Int) : Except EvaluationFault Int :=
  match operator.kind with
  | .plus => .ok (Word32.wrap (left + right))
  | .minus => .ok (Word32.wrap (left - right))
  | .multiply => .ok (Word32.wrap (left * right))
  | .divide =>
      if right = 0 then .error (.divisionByZero operator.position)
      else .ok (Word32.quotient left right)
  | kind => .error (.internal (.unexpectedOperator kind))

end Token

/-! ### The machine -/

namespace Machine

/-- What the machine still has to do. -/
inductive Task where
  /-- To push the value of a tree. -/
  | visit (node : Node)
  /-- To replace the two topmost values, the right operand on top, by the result of an
  operation. -/
  | combine (operator : Token)

/-- A bound on the number of steps that a task takes. -/
def Task.weight : Task → Nat
  | visit node => node.size
  | combine _ => 1

/-- A bound on the number of steps that several tasks take. -/
def Task.totalWeight : List Task → Nat
  | [] => 0
  | task :: tasks => task.weight + totalWeight tasks

/-- What the machine has before it. -/
structure State where
  /-- The tasks that are left, the first one next. -/
  tasks : List Task
  /-- The values found so far, the latest one first. -/
  values : List Int

/-- The machine before it visits a tree. -/
def start (node : Node) : State :=
  { tasks := [.visit node], values := [] }

/-- Carries out a task in the state that is left without it. -/
def step (state : State) : Task → Except EvaluationFault State
  | .visit (.leaf token) => .error (.internal (.unexpectedNode token.kind))
  | .visit (.number token) =>
      match token.number with
      | .ok value => .ok { state with values := value :: state.values }
      | .error fault => .error fault
  | .visit (.parenthesized _ inner _) => .ok { state with tasks := .visit inner :: state.tasks }
  | .visit (.binary left operator right) =>
      -- the left operand comes first, and the operation once both have a value
      .ok { state with
            tasks := .visit left :: .visit right :: .combine operator :: state.tasks }
  | .combine operator =>
      match state.values with
      | right :: left :: values =>
          match operator.operate left right with
          | .ok value => .ok { state with values := value :: values }
          | .error fault => .error fault
      | _ => .error (.internal .missingOperand)

/-- A step that succeeds pushes the value of a number, opens an expression in parentheses or an
operation, or combines the two latest values. -/
theorem step_cases {state after : State} {task : Task} (h : step state task = .ok after) :
    (∃ token value, task = .visit (.number token) ∧ token.number = .ok value ∧
        after = ⟨state.tasks, value :: state.values⟩) ∨
      (∃ opening inner closing, task = .visit (.parenthesized opening inner closing) ∧
        after = ⟨.visit inner :: state.tasks, state.values⟩) ∨
      (∃ left operator right, task = .visit (.binary left operator right) ∧
        after = ⟨.visit left :: .visit right :: .combine operator :: state.tasks, state.values⟩) ∨
      ∃ operator left right values value, task = .combine operator ∧
        state.values = right :: left :: values ∧ operator.operate left right = .ok value ∧
        after = ⟨state.tasks, value :: values⟩ := by
  cases task with
  | visit node =>
      cases node with
      | leaf token => cases h
      | number token =>
          simp only [step] at h
          split at h
          · next value hvalue =>
              cases h
              exact .inl ⟨token, value, rfl, hvalue, rfl⟩
          · cases h
      | binary left operator right =>
          cases h
          exact .inr (.inr (.inl ⟨left, operator, right, rfl, rfl⟩))
      | parenthesized opening inner closing =>
          cases h
          exact .inr (.inl ⟨opening, inner, closing, rfl, rfl⟩)
  | combine operator =>
      simp only [step] at h
      split at h
      · next right left values hvalues =>
          split at h
          · next value hvalue =>
              cases h
              refine .inr (.inr (.inr ⟨operator, left, right, values, value, rfl, ?_, ?_, rfl⟩))
              · exact hvalues
              · exact hvalue
          · cases h
      · cases h

/-- Every step lowers the bound on the number of steps to come. -/
theorem totalWeight_step {state after : State} {task : Task} (h : step state task = .ok after) :
    Task.totalWeight after.tasks < Task.totalWeight (task :: state.tasks) := by
  rcases step_cases h with ⟨token, value, rfl, -, rfl⟩ | ⟨opening, inner, closing, rfl, rfl⟩ |
    ⟨left, operator, right, rfl, rfl⟩ | ⟨operator, left, right, values, value, rfl, -, -, rfl⟩ <;>
    simp only [Task.totalWeight, Task.weight, Node.size] <;> omega

/-- Carries out the tasks, the first one first, and returns the values that are left. -/
def run (state : State) : Except EvaluationFault (List Int) :=
  match state with
  | { tasks := [], values } => .ok values
  | { tasks := task :: tasks, values } =>
      match _hstep : step { tasks, values } task with
      | .ok after => run after
      | .error fault => .error fault
termination_by Task.totalWeight state.tasks
decreasing_by exact totalWeight_step _hstep

/-- Without tasks the machine stops. -/
theorem run_nil (values : List Int) : run ⟨[], values⟩ = .ok values := by
  rw [run]

/-- The machine takes one step after the other. -/
theorem run_cons (task : Task) (tasks : List Task) (values : List Int) :
    run ⟨task :: tasks, values⟩ =
      match step ⟨tasks, values⟩ task with
      | .ok after => run after
      | .error fault => .error fault := by
  rw [run]
  split <;> simp_all

end Machine

namespace Node

/-- The value of the tree: what the machine has on top of its stack after visiting it. -/
def evaluate (node : Node) : Except EvaluationFault Int :=
  match Machine.run (Machine.start node) with
  | .ok (value :: _) => .ok value
  | .ok [] => .error (.internal .missingOperand)
  | .error fault => .error fault

/-- The value of the tree by recursion.  Of several faults the leftmost operand's comes first, and
that of the operation itself last. -/
def meaning : Node → Except EvaluationFault Int
  | leaf token => .error (.internal (.unexpectedNode token.kind))
  | number token => token.number
  | binary left operator right =>
      match left.meaning with
      | .error fault => .error fault
      | .ok leftValue =>
          match right.meaning with
          | .error fault => .error fault
          | .ok rightValue => operator.operate leftValue rightValue
  | parenthesized _ inner _ => inner.meaning

end Node

/-! ### Whole texts -/

namespace Parsed

/-- The value of the expression, unless diagnostics were noted. -/
def evaluate (parsed : Parsed) : Except EvaluationFault Int :=
  if parsed.hasDiagnostics then .error (.rejected parsed.diagnostics.length)
  else parsed.root.evaluate

end Parsed

end Calculator
