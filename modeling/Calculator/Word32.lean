/-
Signed 32-bit arithmetic.

The calculator computes with whole numbers between `-2 ^ 31` and `2 ^ 31 - 1`.  A result outside
that range wraps around, and division drops the fraction.

* `Word32.minimum`, `Word32.maximum`, `Word32.modulus`, `Word32.InRange` — the range;
* `Word32.wrap` — the number of the range that agrees with a given one modulo `2 ^ 32`, and
  `Word32.wrap_eq` — the formula for it;
* `Word32.quotient` — division toward zero, wrapped;
* `Word32.divide` — the same with a fault for the divisor zero.
-/

set_option relaxedAutoImplicit false
set_option autoImplicit false

namespace Calculator.Word32

/-! ### The range -/

/-- The smallest number of the range, `-2 ^ 31`. -/
def minimum : Int := -0x80000000

/-- The largest number of the range, `2 ^ 31 - 1`. -/
def maximum : Int := 0x7FFFFFFF

/-- The number of numbers of the range, `2 ^ 32`. -/
def modulus : Nat := 0x100000000

/-- Does the number lie in the signed 32-bit range? -/
def InRange (value : Int) : Prop :=
  minimum ≤ value ∧ value ≤ maximum

instance (value : Int) : Decidable (InRange value) :=
  inferInstanceAs (Decidable (_ ∧ _))

/-- Wraps a number around into the range. -/
def wrap (value : Int) : Int :=
  value.bmod modulus

/-- Wrapping counts from the smallest number on, and drops whole rounds of the range. -/
theorem wrap_eq (value : Int) : wrap value = (value - minimum) % modulus + minimum := by
  rw [wrap, Int.bmod_def]
  simp only [minimum, modulus]
  omega

/-- Wrapping ends in the range. -/
theorem inRange_wrap (value : Int) : InRange (wrap value) := by
  rw [wrap_eq]
  simp only [InRange, minimum, maximum, modulus]
  omega

/-- Wrapping leaves the numbers of the range alone. -/
theorem wrap_of_inRange {value : Int} (h : InRange value) : wrap value = value := by
  rw [wrap_eq]
  simp only [InRange, minimum, maximum, modulus] at h ⊢
  omega

/-! ### Division -/

/-- The quotient without its fraction, wrapped.  The only quotient of numbers of the range that
wraps is that of the smallest number and `-1`. -/
def quotient (left right : Int) : Int :=
  wrap (left.tdiv right)

/-- A division whose divisor is zero. -/
inductive ZeroDivisor where
  | zeroDivisor
deriving DecidableEq

/-- The wording of the fault. -/
def ZeroDivisor.message : ZeroDivisor → String
  | .zeroDivisor => "integer division or modulo by zero"

/-- Divides toward zero and wraps; a divisor zero is a fault. -/
def divide (left right : Int) : Except ZeroDivisor Int :=
  if right = 0 then .error .zeroDivisor else .ok (quotient left right)

end Calculator.Word32
