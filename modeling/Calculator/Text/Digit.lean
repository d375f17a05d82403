/-
Decimal digits of all scripts.

A decimal digit is a character of the Unicode category Nd (version 14).  Each script that has
decimal digits encodes them as ten consecutive code points from its zero upwards, so the zeros
determine the class and the value of every digit.

* `zeros` — the code points of the zeros, in increasing order;
* `digitValue?` — the value of a decimal digit, `none` on every other character;
* `isDigit` — is a character a decimal digit?
* `decimalValue` — the number that a run of digits denotes, whatever scripts it mixes.
-/

set_option relaxedAutoImplicit false
set_option autoImplicit false

namespace Calculator.Text

/-! ### One digit -/

/-- The code points of the zeros of all scripts with decimal digits, in increasing order. -/
def zeros : List Nat :=
  [0x30, 0x660, 0x6F0, 0x7C0, 0x966, 0x9E6, 0xA66, 0xAE6, 0xB66, 0xBE6, 0xC66, 0xCE6, 0xD66,
   0xDE6, 0xE50, 0xED0, 0xF20, 0x1040, 0x1090, 0x17E0, 0x1810, 0x1946, 0x19D0, 0x1A80, 0x1A90,
   0x1B50, 0x1BB0, 0x1C40, 0x1C50, 0xA620, 0xA8D0, 0xA900, 0xA9D0, 0xA9F0, 0xAA50, 0xABF0,
   0xFF10, 0x104A0, 0x10D30, 0x11066, 0x110F0, 0x11136, 0x111D0, 0x112F0, 0x11450, 0x114D0,
   0x11650, 0x116C0, 0x11730, 0x118E0, 0x11950, 0x11C50, 0x11D50, 0x11DA0, 0x16A60, 0x16AC0,
   0x16B50, 0x1D7CE, 0x1D7D8, 0x1D7E2, 0x1D7EC, 0x1D7F6, 0x1E140, 0x1E2F0, 0x1E950, 0x1FBF0]

/-- The distance of a code point from the zero among `zs` whose ten digits hold it.  The search
ends at the first zero above the code point. -/
def digitValueFrom? : List Nat → Nat → Option Nat
  | [], _ => none
  | base :: zs, n =>
      if n < base then none else if n < base + 10 then some (n - base) else digitValueFrom? zs n

/-- The value of a decimal digit; `none` for a character that is none. -/
def digitValue? (c : Char) : Option Nat :=
  digitValueFrom? zeros c.toNat

/-- Is the character a decimal digit of some script? -/
def isDigit (c : Char) : Bool :=
  (digitValue? c).isSome

/-! ### A run of digits -/

/-- The number that a run of digits denotes in decimal notation, most significant digit first. -/
def decimalValue (digits : List Char) : Nat :=
  digits.foldl (fun value c => 10 * value + (digitValue? c).getD 0) 0

/-- A further digit multiplies the value by ten and adds its own. -/
@[simp] theorem decimalValue_concat (digits : List Char) (c : Char) :
    decimalValue (digits ++ [c]) = 10 * decimalValue digits + (digitValue? c).getD 0 := by
  simp [decimalValue]

end Calculator.Text
