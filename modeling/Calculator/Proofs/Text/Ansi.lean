/-
Texts without control sequences.

Removing control sequences goes from left to right, so what becomes of a text may depend on what
stands behind it: an escape character at its end may open a control sequence that goes on there.
Inert texts are those that stay as they are whatever follows.

* `Ansi.Inert` — inert texts, and `Ansi.Inert.append`, one behind the other;
* `Ansi.Inert.of_no_escape`, `Ansi.Inert.enclosed` — texts that are inert.
-/

import Calculator.Text.Ansi
import Mathlib.Data.List.Basic

set_option relaxedAutoImplicit false
set_option autoImplicit false

namespace Calculator.Text.Ansi

/-! ### Single characters -/

@[simp] theorem strip_nil : strip [] = [] := by
  rw [strip]

theorem strip_of_afterSequence?_eq_none {c : Char} {rest : List Char}
    (h : afterSequence? (c :: rest) = none) : strip (c :: rest) = c :: strip rest := by
  rw [strip]
  split
  · next after hafter => simp [h] at hafter
  · rfl

/-- A control sequence begins with the escape character. -/
theorem strip_cons_of_ne {c : Char} (h : c ≠ escapeChar) (rest : List Char) :
    strip (c :: rest) = c :: strip rest := by
  refine strip_of_afterSequence?_eq_none ?_
  unfold afterSequence?
  split
  · next first more heq =>
      cases heq
      exact if_neg h
  · rfl

/-- The second character of a control sequence is a bracket. -/
theorem strip_cons_cons_of_ne {d : Char} (h : d ≠ '[') (c : Char) (rest : List Char) :
    strip (c :: d :: rest) = c :: strip (d :: rest) := by
  refine strip_of_afterSequence?_eq_none ?_
  unfold afterSequence?
  split
  · next first more heq =>
      cases heq
      exact absurd rfl h
  · rfl

/-! ### Inert texts -/

/-- Does the text hold no part of a control sequence, whatever stands behind it? -/
def Inert (text : List Char) : Prop :=
  ∀ rest, strip (text ++ rest) = text ++ strip rest

namespace Inert

variable {text more : List Char}

theorem strip_eq (h : Inert text) : strip text = text := by
  simpa using h []

theorem append (h : Inert text) (hmore : Inert more) : Inert (text ++ more) := by
  intro rest
  rw [List.append_assoc, h, hmore, List.append_assoc]

theorem of_no_escape (h : escapeChar ∉ text) : Inert text := by
  induction text with
  | nil => exact fun _ => rfl
  | cons c text ih =>
      obtain ⟨hfirst, hmore⟩ := not_or.1 (mt List.mem_cons.2 h)
      intro rest
      rw [List.cons_append, strip_cons_of_ne (Ne.symm hfirst), ih hmore, List.cons_append]

theorem lineFeed : Inert "\n".toList :=
  .of_no_escape (by decide)

/-- Any character between inert texts, if what is behind it does not begin with a bracket. -/
theorem enclosed {d : Char} {before after : List Char} (hbefore : Inert before) (c : Char)
    (hafter : Inert (d :: after)) (h : d ≠ '[') : Inert (before ++ c :: d :: after) := by
  refine hbefore.append fun rest => ?_
  have hstrip := strip_cons_cons_of_ne h c (after ++ rest)
  rw [← List.cons_append, hafter] at hstrip
  exact hstrip

end Inert

end Calculator.Text.Ansi
