/-
Division of numbers with signs.

A quotient without its fraction is told by its remainder, which is smaller than the divisor and has
the sign of the dividend.  It can be found by dividing the magnitudes of the two numbers, which have
no signs, and deciding on the sign of the result afterwards.  Among the numbers of the signed 32-bit
range only one division leads out of the range: the smallest number has no negative in it.

* `Word32.Truncates` — a quotient without its fraction, told by the remainder;
* `Word32.Truncates.unique` — **there is at most one such quotient**;
* `Word32.signedQuotient`, `Word32.tdiv_eq_signedQuotient` — the quotient of the magnitudes, with
  its sign;
* `Word32.signedQuotient_eq_sign_mul`, `Word32.remainder_signedQuotient` — its remainder is that of
  the magnitudes, with the sign of the dividend;
* `Word32.truncates_signedQuotient` — so it is the quotient without its fraction;
* `Word32.inRange_signedQuotient`, `Word32.wrap_signedQuotient` — the one division that wraps;
* `Token.operate_eq_ok_iff`, `Token.operate_eq_error_iff` — the values and the faults of operations
  against those of division;
* `Word32.divide_truncates` — all this about the divisions of the calculator.
-/

import Calculator.Evaluation
import Mathlib.Algebra.Order.Ring.Abs
import Mathlib.Data.Int.Order.Lemmas
import Mathlib.Tactic.Ring

set_option relaxedAutoImplicit false
set_option autoImplicit false

namespace Calculator

namespace Word32

/-! ### Quotients without a fraction -/

/-- `Truncates left right quotient` says that `quotient` is the quotient of `left` and `right`
without its fraction. -/
structure Truncates (left right quotient : Int) : Prop where
  /-- The remainder is smaller than the divisor. -/
  remainder_lt : |left - quotient * right| < |right|
  /-- The remainder, if there is one, has the sign of the dividend. -/
  remainder_sign : left - quotient * right = 0 ∨ (left - quotient * right).sign = left.sign

/-- Two numbers of which none has the opposite sign of a third one are not further apart than the
larger of them is from zero. -/
theorem abs_sub_lt_of_sign {first second dividend bound : Int} (hfirst : |first| < bound)
    (hsecond : |second| < bound) (hfirstSign : first = 0 ∨ first.sign = dividend.sign)
    (hsecondSign : second = 0 ∨ second.sign = dividend.sign) : |first - second| < bound := by
  rw [abs_lt] at hfirst hsecond ⊢
  rcases lt_trichotomy dividend 0 with hneg | rfl | hpos
  · rw [Int.sign_eq_neg_one_of_neg hneg, Int.sign_eq_neg_one_iff_neg] at hfirstSign hsecondSign
    omega
  · rw [Int.sign_zero, Int.sign_eq_zero_iff_zero] at hfirstSign hsecondSign
    omega
  · rw [Int.sign_eq_one_of_pos hpos, Int.sign_eq_one_iff_pos] at hfirstSign hsecondSign
    omega

/-- There is only one quotient without a fraction: the remainders of two quotients differ by less
than the divisor, but also by a multiple of it. -/
theorem Truncates.unique {left right first second : Int} (hfirst : Truncates left right first)
    (hsecond : Truncates left right second) : first = second := by
  have hclose := abs_sub_lt_of_sign hfirst.remainder_lt hsecond.remainder_lt
    hfirst.remainder_sign hsecond.remainder_sign
  have hmultiple : left - first * right - (left - second * right) = (second - first) * right := by
    ring
  rw [hmultiple, abs_mul] at hclose
  have hlt : |second - first| < 1 :=
    lt_of_mul_lt_mul_right (by rwa [one_mul]) (abs_nonneg right)
  exact (sub_eq_zero.1 (Int.abs_lt_one_iff.1 hlt)).symm

/-! ### Dividing magnitudes -/

/-- The quotient of the magnitudes, negative if just one of the two numbers is. -/
def signedQuotient (left right : Int) : Int :=
  if left < 0 ↔ right < 0 then |left| / |right| else -(|left| / |right|)

/-- The quotient of the magnitudes with its sign is the quotient toward zero. -/
theorem tdiv_eq_signedQuotient (left right : Int) :
    left.tdiv right = signedQuotient left right := by
  rw [signedQuotient]
  rcases lt_or_ge left 0 with hleft | hleft <;> rcases lt_or_ge right 0 with hright | hright
  · rw [if_pos (iff_of_true hleft hright), abs_of_neg hleft, abs_of_neg hright,
      ← Int.neg_tdiv_neg, Int.tdiv_eq_ediv_of_nonneg (by omega)]
  · rw [if_neg (by omega), abs_of_neg hleft, abs_of_nonneg hright,
      ← Int.tdiv_eq_ediv_of_nonneg (by omega), Int.neg_tdiv, neg_neg]
  · rw [if_neg (by omega), abs_of_nonneg hleft, abs_of_neg hright,
      ← Int.tdiv_eq_ediv_of_nonneg hleft, Int.tdiv_neg, neg_neg]
  · rw [if_pos (by omega), abs_of_nonneg hleft, abs_of_nonneg hright,
      Int.tdiv_eq_ediv_of_nonneg hleft]

theorem quotient_eq (left right : Int) :
    quotient left right = wrap (signedQuotient left right) := by
  rw [quotient, tdiv_eq_signedQuotient]

theorem abs_signedQuotient (left right : Int) :
    |signedQuotient left right| = |left| / |right| := by
  have hnonneg : 0 ≤ |left| / |right| := Int.ediv_nonneg (abs_nonneg left) (abs_nonneg right)
  rw [signedQuotient]
  split
  · exact abs_of_nonneg hnonneg
  · rw [abs_neg, abs_of_nonneg hnonneg]

/-- The sign of the quotient is the product of the signs, unless the quotient is zero anyway. -/
theorem signedQuotient_eq_sign_mul (left right : Int) :
    signedQuotient left right = left.sign * right.sign * (|left| / |right|) := by
  rw [signedQuotient]
  rcases lt_trichotomy left 0 with hleft | rfl | hleft
  · rcases lt_trichotomy right 0 with hright | rfl | hright
    · simp [hleft, hright, Int.sign_eq_neg_one_of_neg]
    · simp
    · simp [hleft, hright.not_gt, Int.sign_eq_neg_one_of_neg, Int.sign_eq_one_of_pos hright]
  · simp
  · rcases lt_trichotomy right 0 with hright | rfl | hright
    · simp [hleft.not_gt, hright, Int.sign_eq_neg_one_of_neg, Int.sign_eq_one_of_pos hleft]
    · simp
    · simp [hleft.not_gt, hright.not_gt, Int.sign_eq_one_of_pos hleft,
        Int.sign_eq_one_of_pos hright]

/-- What the division of the magnitudes leaves is left with the sign of the dividend. -/
theorem remainder_signedQuotient (left right : Int) :
    left - signedQuotient left right * right = left.sign * (|left| % |right|) := by
  have hdividend : left.sign * |left| = left := Int.sign_mul_abs left
  have hdivisor : right.sign * right = |right| := Int.sign_mul_self_eq_abs right
  calc left - signedQuotient left right * right
      = left.sign * |left| - left.sign * (right.sign * right) * (|left| / |right|) := by
        rw [signedQuotient_eq_sign_mul, hdividend]
        ring
    _ = left.sign * (|left| - |right| * (|left| / |right|)) := by
        rw [hdivisor]
        ring
    _ = left.sign * (|left| % |right|) := by rw [Int.emod_def]

/-- The quotient of the magnitudes, with its sign, is the quotient without its fraction. -/
theorem truncates_signedQuotient (left : Int) {right : Int} (hright : right ≠ 0) :
    Truncates left right (signedQuotient left right) := by
  have hpos : 0 < |right| := abs_pos.2 hright
  have hnonneg : 0 ≤ |left| % |right| := Int.emod_nonneg _ hpos.ne'
  have hlt : |left| % |right| < |right| := Int.emod_lt_of_pos _ hpos
  constructor
  · rw [remainder_signedQuotient, abs_mul, abs_of_nonneg hnonneg]
    rcases eq_or_ne left 0 with rfl | hleft
    · simpa using hpos
    · rwa [Int.abs_sign_of_ne_zero hleft, one_mul]
  · rw [remainder_signedQuotient]
    rcases hnonneg.eq_or_lt with hzero | hpositive
    · exact .inl (by rw [← hzero, mul_zero])
    · exact .inr (by rw [Int.sign_mul, Int.sign_sign, Int.sign_eq_one_of_pos hpositive, mul_one])

/-! ### The one division that wraps -/

/-- Division leads out of the range only from the smallest number, and only for the divisor
`-1`. -/
theorem inRange_signedQuotient {left right : Int} (hleft : InRange left) (hright : right ≠ 0)
    (h : ¬(left = minimum ∧ right = -1)) : InRange (signedQuotient left right) := by
  simp only [InRange, minimum, maximum] at hleft h ⊢
  have hcases : right = 1 ∨ right = -1 ∨ 2 ≤ |right| := by
    rw [le_abs]
    omega
  rcases hcases with rfl | rfl | hlarge
  · rw [← tdiv_eq_signedQuotient, Int.tdiv_one]
    omega
  · rw [← tdiv_eq_signedQuotient, Int.tdiv_neg, Int.tdiv_one]
    omega
  · have habs : |left| ≤ 0x80000000 := abs_le.2 (by omega)
    have hhalf : |left| / |right| ≤ 0x40000000 :=
      Int.ediv_le_of_le_mul (by omega) (by omega)
    rw [← abs_signedQuotient, abs_le] at hhalf
    omega

/-- Dividing numbers of the range wraps only the quotient of the smallest one and `-1`, which
becomes the smallest number again. -/
theorem wrap_signedQuotient {left right : Int} (hleft : InRange left) (hright : right ≠ 0) :
    wrap (signedQuotient left right) =
      if left = minimum ∧ right = -1 then minimum else signedQuotient left right := by
  split
  · next h =>
      obtain ⟨rfl, rfl⟩ := h
      decide
  · next h => exact wrap_of_inRange (inRange_signedQuotient hleft hright h)

/-! ### Division and its fault -/

theorem divide_of_ne_zero (left : Int) {right : Int} (hright : right ≠ 0) :
    divide left right = .ok (wrap (signedQuotient left right)) := by
  rw [divide, if_neg hright, quotient_eq]

theorem divide_eq_error_iff (left right : Int) :
    divide left right = .error .zeroDivisor ↔ right = 0 := by
  constructor
  · intro h
    by_contra hright
    rw [divide_of_ne_zero left hright] at h
    cases h
  · rintro rfl
    rfl

end Word32

namespace Token

/-- The value of an operation that divides is that of the division. -/
theorem operate_eq_ok_iff {operator : Token} (hkind : operator.kind = .divide)
    (left right value : Int) :
    operator.operate left right = .ok value ↔ Word32.divide left right = .ok value := by
  simp only [operate, hkind, Word32.divide]
  split <;> simp

/-- An operation has no fault but that its operator is none, and that the right operand of a
division is zero, which it notices before it divides. -/
theorem operate_eq_error_iff (operator : Token) (left right : Int) (fault : EvaluationFault) :
    operator.operate left right = .error fault ↔
      (operator.kind = .divide ∧ right = 0 ∧ fault = .divisionByZero operator.position) ∨
        (operator.kind.isAdditive = false ∧ operator.kind.isMultiplicative = false ∧
          fault = .internal (.unexpectedOperator operator.kind)) := by
  rw [operate]
  cases hkind : operator.kind with
  | divide =>
      by_cases hright : right = 0 <;>
        simp [Kind.isMultiplicative, hright, @eq_comm _ fault]
  | _ => simp [Kind.isAdditive, Kind.isMultiplicative, @eq_comm _ fault]

end Token

namespace Word32

/-! ### Main result -/

/-- Division is a fault exactly for the divisor zero.  For any other divisor there is exactly one
quotient without a fraction, which is the quotient of the magnitudes with its sign; the result of
the division is that quotient, wrapped, and among the numbers of the range only the smallest one
divided by `-1` makes wrapping matter.  An operation never divides by zero: where it divides, its
value is that of the division, and all its faults are its own. -/
theorem divide_truncates (left right : Int) :
    (divide left right = .error .zeroDivisor ↔ right = 0) ∧
    (right ≠ 0 →
      ∃ quotient, Truncates left right quotient ∧
        (∀ other, Truncates left right other → other = quotient) ∧
        quotient = signedQuotient left right ∧
        divide left right = .ok (wrap quotient) ∧
        (InRange left →
          wrap quotient = if left = minimum ∧ right = -1 then minimum else quotient)) ∧
    ∀ operator : Token,
      (operator.kind = .divide →
        ∀ value, operator.operate left right = .ok value ↔ divide left right = .ok value) ∧
      ∀ fault, operator.operate left right = .error fault ↔
        (operator.kind = .divide ∧ right = 0 ∧ fault = .divisionByZero operator.position) ∨
          (operator.kind.isAdditive = false ∧ operator.kind.isMultiplicative = false ∧
            fault = .internal (.unexpectedOperator operator.kind)) := by
  refine ⟨divide_eq_error_iff left right, fun hright => ?_, fun operator => ⟨?_, ?_⟩⟩
  · have htruncates := truncates_signedQuotient left hright
    refine ⟨signedQuotient left right, htruncates, fun other hother => ?_, rfl, ?_, ?_⟩
    · exact hother.unique htruncates
    · exact divide_of_ne_zero left hright
    · exact fun hleft => wrap_signedQuotient hleft hright
  · exact fun hkind value => Token.operate_eq_ok_iff hkind left right value
  · exact fun fault => Token.operate_eq_error_iff operator left right fault

/-- The smallest number divided by `-1`: the quotient is out of the range and wraps around to the
smallest number. -/
theorem divide_truncates_smallest :
    (-1 : Int) ≠ 0 ∧ InRange minimum ∧
      ∃ quotient, Truncates minimum (-1) quotient ∧ quotient = maximum + 1 ∧
        divide minimum (-1) = .ok (wrap quotient) ∧ wrap quotient = minimum := by
  have hright : (-1 : Int) ≠ 0 := by decide
  have hleft : InRange minimum := ⟨le_rfl, by decide⟩
  obtain ⟨-, hquotient, -⟩ := divide_truncates minimum (-1)
  obtain ⟨quotient, htruncates, -, hsigned, hdivide, hwrap⟩ := hquotient hright
  refine ⟨hright, hleft, quotient, htruncates, hsigned.trans (by decide), hdivide, ?_⟩
  rw [hwrap hleft, if_pos ⟨rfl, rfl⟩]

end Word32

end Calculator
