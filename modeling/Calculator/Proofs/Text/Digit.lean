/-
Digits and their places.

The zeros of all scripts are so far apart that a digit belongs to one of them only.  What the lexer
computes from a run of digits, reading it from left to right, is the number that the digits denote
by their places, whatever scripts they belong to.  So it reads the numeral of a number as that
number, and no two numbers share a numeral.

* `Text.digitValue?_eq_some_iff` — **a digit, by its distance from the zero of its script**;
* `Text.positionalValue`, `Text.decimalValue_eq` — a run of digits, by the powers of ten;
* `Text.decimalValue_repr`, `Text.toString_int_inj` — numerals.
-/

import Calculator.Text.Digit
import Mathlib.Data.List.Induction
import Mathlib.Data.Nat.Digits.Defs

set_option relaxedAutoImplicit false
set_option autoImplicit false

namespace Calculator.Text

/-! ### One digit -/

/-- If the ten digits of no zero overlap those of a later one, the search for a digit finds the only
zero that the digit can belong to. -/
theorem digitValueFrom?_eq_some_iff {zs : List Nat}
    (h : zs.Pairwise fun base later => base + 10 ≤ later) {n d : Nat} :
    digitValueFrom? zs n = some d ↔ d < 10 ∧ ∃ base ∈ zs, n = base + d := by
  induction zs with
  | nil => simp [digitValueFrom?]
  | cons base zs ih =>
      obtain ⟨hlater, hzs⟩ := List.pairwise_cons.1 h
      have hmem : (d < 10 ∧ ∃ other ∈ base :: zs, n = other + d) ↔
          (d < 10 ∧ n = base + d) ∨ (d < 10 ∧ ∃ other ∈ zs, n = other + d) := by
        simp only [List.mem_cons, exists_eq_or_imp, and_or_left]
      have hbehind : (∃ other ∈ zs, n = other + d) → base + 10 ≤ n := by
        rintro ⟨other, hother, rfl⟩
        have := hlater other hother
        omega
      rw [digitValueFrom?, hmem]
      split
      · next hlt =>
          simp only [reduceCtorEq, false_iff]
          rintro (⟨-, rfl⟩ | ⟨-, hother⟩)
          · omega
          · have := hbehind hother
            omega
      · split
        · next hle hlt =>
            rw [Option.some.injEq]
            constructor
            · rintro rfl
              exact .inl ⟨by omega, by omega⟩
            · rintro (⟨-, rfl⟩ | ⟨-, hother⟩)
              · omega
              · have := hbehind hother
                omega
        · next hle hge =>
            rw [ih hzs]
            constructor
            · exact .inr
            · rintro (⟨hd, rfl⟩ | hother)
              · omega
              · exact hother

/-- The ten digits of a script do not overlap those of another one. -/
theorem pairwise_zeros : zeros.Pairwise fun base later => base + 10 ≤ later := by
  decide +kernel

/-- The value of a digit is its distance from the zero of its script, which is less than ten. -/
theorem digitValue?_eq_some_iff {c : Char} {d : Nat} :
    digitValue? c = some d ↔ d < 10 ∧ ∃ base ∈ zeros, c.toNat = base + d :=
  digitValueFrom?_eq_some_iff pairwise_zeros

/-! ### A run of digits -/

/-- The number that a run of digits denotes: every digit counts its value times a power of ten, the
last one times one, the one in front of it times ten, and so on. -/
def positionalValue (digits : List Char) : Nat :=
  Nat.ofDigits 10 (digits.reverse.map fun c => (digitValue? c).getD 0)

/-- Reading digits from left to right yields the number that they denote. -/
theorem decimalValue_eq (digits : List Char) : decimalValue digits = positionalValue digits := by
  induction digits using List.reverseRecOn with
  | nil => rfl
  | append_singleton digits c ih =>
      rw [decimalValue_concat, ih, positionalValue, positionalValue, List.reverse_append,
        List.reverse_singleton, List.singleton_append, List.map_cons, Nat.ofDigits_cons,
        Nat.add_comm]

/-! ### Numerals -/

theorem digitValue?_digitChar : ∀ digit < 10, digitValue? (Nat.digitChar digit) = some digit := by
  decide +kernel

/-- What is written for a number is read as that number. -/
theorem decimalValue_repr (n : Nat) : decimalValue n.repr.toList = n := by
  induction n using Nat.strongRecOn with
  | ind n ih =>
      rcases Nat.lt_or_ge n 10 with hlt | hge
      · rw [Nat.repr_of_lt hlt, String.toList_singleton, decimalValue, List.foldl_cons,
          List.foldl_nil, digitValue?_digitChar n hlt, Nat.mul_zero, Nat.zero_add, Option.getD_some]
      · have hlast : n % 10 < 10 := Nat.mod_lt n (by omega)
        rw [Nat.repr_of_ge hge, String.toList_append, String.toList_singleton, decimalValue_concat,
          ih (n / 10) (by omega), digitValue?_digitChar _ hlast, Option.getD_some]
        exact Nat.div_add_mod n 10

theorem repr_inj {first second : Nat} (h : first.repr = second.repr) : first = second := by
  rw [← decimalValue_repr first, h, decimalValue_repr]

/-- There is no sign in the numeral of a number that is not negative. -/
theorem repr_ne_minus_append (n : Nat) (rest : String) : n.repr ≠ "-" ++ rest := by
  intro h
  have hminus : '-' ∈ n.repr.toList := by
    rw [h]
    simp
  rw [Nat.toList_repr] at hminus
  exact absurd (Nat.isDigit_of_mem_toDigits (by decide) (by decide) hminus) (by decide)

/-- What is written for a number with a sign is written for no other number. -/
theorem toString_int_inj {first second : Int} (h : toString first = toString second) :
    first = second := by
  cases first with
  | ofNat m =>
      cases second with
      | ofNat n => exact congrArg Int.ofNat (repr_inj h)
      | negSucc n => exact absurd h (repr_ne_minus_append m n.succ.repr)
  | negSucc m =>
      cases second with
      | ofNat n => exact absurd h.symm (repr_ne_minus_append n m.succ.repr)
      | negSucc n =>
          have hsucc : m.succ.repr = n.succ.repr := (String.append_right_inj "-").1 h
          exact congrArg Int.negSucc (Nat.succ.inj (repr_inj hsucc))

end Calculator.Text
