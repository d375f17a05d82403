/-
Dialects of control sequences.

Where output goes to no terminal, control sequences are left out of it.  What counts as one is a
matter of dialect: the sequences in common use have digits, semicolons and question marks for
parameters and end with a letter, and the full language has more of everything.  A text that holds
no part of a control sequence in the full language holds none in any dialect.

* `Dialect`, `Dialect.IsSequence` — the dialects and their sequences;
* `Dialect.afterSequence?_eq_some_iff` — what is left out are exactly the sequences;
* `Dialect.strip`, `Dialect.strip_full` — a text without them, and the full language as a dialect;
* `Inert.afterSequence?_eq_none` — no sequence begins in an inert text, whatever follows;
* `Dialect.Leaves`, `Dialect.Leaves.of_inert` — what a dialect leaves of a text, and that it leaves
  all of an inert one;
* `Dialect.Leaves.paint` — **an inert text loses its color, and nothing else**.
-/

import Calculator.Proofs.Text.Ansi

set_option relaxedAutoImplicit false
set_option autoImplicit false

namespace Calculator.Text.Ansi

/-! ### Dialects -/

/-- What counts as a control sequence. -/
inductive Dialect where
  /-- The sequences in common use. -/
  | common
  /-- All of them. -/
  | full
deriving DecidableEq

namespace Dialect

/-- A parameter character: in common use a digit, a semicolon or a question mark. -/
def isParameter : Dialect → Char → Bool
  | common, c => c.isDigit || c = ';' || c = '?'
  | full, c => Ansi.isParameter c

/-- An intermediate character, of which there are none in common use. -/
def isIntermediate : Dialect → Char → Bool
  | common, _ => false
  | full, c => Ansi.isIntermediate c

/-- A final character: in common use a letter. -/
def isFinal : Dialect → Char → Bool
  | common, c => c.isAlpha
  | full, c => Ansi.isFinal c

/-- Is the text, from its beginning to its end, a control sequence of the dialect? -/
def IsSequence (dialect : Dialect) (text : List Char) : Prop :=
  ∃ parameters intermediates final,
    text = escapeChar :: '[' :: (parameters ++ (intermediates ++ [final])) ∧
      (∀ c ∈ parameters, dialect.isParameter c = true) ∧
      (∀ c ∈ intermediates, dialect.isIntermediate c = true) ∧ dialect.isFinal final = true

/-- What follows the control sequence at the beginning of the text, if there is one. -/
def afterSequence? (dialect : Dialect) : List Char → Option (List Char)
  | first :: '[' :: rest =>
      if first = escapeChar then
        match (rest.dropWhile dialect.isParameter).dropWhile dialect.isIntermediate with
        | final :: after => if dialect.isFinal final then some after else none
        | [] => none
      else none
  | _ => none

theorem afterSequence?_full (text : List Char) :
    full.afterSequence? text = Ansi.afterSequence? text :=
  rfl

/-! ### The classes of characters -/

section Classes

variable {c : Char}

theorem isParameter_full_iff : full.isParameter c = true ↔ 0x30 ≤ c.toNat ∧ c.toNat ≤ 0x3F := by
  simp only [isParameter, Ansi.isParameter, Bool.and_eq_true, decide_eq_true_eq]
  exact Iff.rfl

theorem isIntermediate_full_iff :
    full.isIntermediate c = true ↔ 0x20 ≤ c.toNat ∧ c.toNat ≤ 0x2F := by
  simp only [isIntermediate, Ansi.isIntermediate, Bool.and_eq_true, decide_eq_true_eq]
  exact Iff.rfl

theorem isFinal_full_iff : full.isFinal c = true ↔ 0x40 ≤ c.toNat ∧ c.toNat ≤ 0x7E := by
  simp only [isFinal, Ansi.isFinal, Bool.and_eq_true, decide_eq_true_eq]
  exact Iff.rfl

theorem isParameter_common_iff :
    common.isParameter c = true ↔
      (0x30 ≤ c.toNat ∧ c.toNat ≤ 0x39) ∨ c.toNat = 0x3B ∨ c.toNat = 0x3F := by
  simp only [isParameter, Char.isDigit, Bool.or_eq_true, Bool.and_eq_true, decide_eq_true_eq,
    ← Char.toNat_inj, or_assoc]
  exact Iff.rfl

theorem isFinal_common_iff :
    common.isFinal c = true ↔
      (0x41 ≤ c.toNat ∧ c.toNat ≤ 0x5A) ∨ (0x61 ≤ c.toNat ∧ c.toNat ≤ 0x7A) := by
  have hupper : c.isUpper = true ↔ 0x41 ≤ c.toNat ∧ c.toNat ≤ 0x5A := decide_eq_true_iff
  have hlower : c.isLower = true ↔ 0x61 ≤ c.toNat ∧ c.toNat ≤ 0x7A :=
    Bool.and_eq_true_iff.trans (and_congr decide_eq_true_iff decide_eq_true_iff)
  rw [← hupper, ← hlower, ← Bool.or_eq_true]
  exact Iff.rfl

variable {dialect : Dialect}

/-- Where a sequence can end, its parameters and intermediate characters cannot go on. -/
theorem of_isFinal (h : dialect.isFinal c = true) :
    dialect.isParameter c = false ∧ dialect.isIntermediate c = false := by
  cases dialect with
  | common =>
      rw [isFinal_common_iff] at h
      refine ⟨Bool.eq_false_iff.2 fun hparameter => ?_, rfl⟩
      rw [isParameter_common_iff] at hparameter
      omega
  | full =>
      rw [isFinal_full_iff] at h
      refine ⟨Bool.eq_false_iff.2 fun hparameter => ?_,
        Bool.eq_false_iff.2 fun hintermediate => ?_⟩
      · rw [isParameter_full_iff] at hparameter
        omega
      · rw [isIntermediate_full_iff] at hintermediate
        omega

theorem not_isParameter_of_isIntermediate (h : dialect.isIntermediate c = true) :
    dialect.isParameter c = false := by
  cases dialect with
  | common => cases h
  | full =>
      rw [isIntermediate_full_iff] at h
      refine Bool.eq_false_iff.2 fun hparameter => ?_
      rw [isParameter_full_iff] at hparameter
      omega

end Classes

/-! ### Sequences -/

variable {dialect : Dialect} {text rest after : List Char}

/-- Every sequence of a dialect is one of the full language. -/
theorem IsSequence.toFull (h : dialect.IsSequence text) : full.IsSequence text := by
  cases dialect with
  | full => exact h
  | common =>
      obtain ⟨parameters, intermediates, final, htext, hparameters, hintermediates, hfinal⟩ := h
      refine ⟨parameters, intermediates, final, htext, fun c hc => ?_, fun c hc => ?_, ?_⟩
      · have hclass := isParameter_common_iff.1 (hparameters c hc)
        exact isParameter_full_iff.2 (by omega)
      · cases hintermediates c hc
      · have hclass := isFinal_common_iff.1 hfinal
        exact isFinal_full_iff.2 (by omega)

theorem IsSequence.exists_cons (h : dialect.IsSequence text) :
    ∃ rest, text = escapeChar :: '[' :: rest := by
  obtain ⟨parameters, intermediates, final, htext, -⟩ := h
  exact ⟨_, htext⟩

/-- What is found at the beginning of a text are exactly the sequences. -/
theorem afterSequence?_eq_some_iff :
    dialect.afterSequence? text = some after ↔
      ∃ sequence, dialect.IsSequence sequence ∧ text = sequence ++ after := by
  constructor
  · intro h
    unfold afterSequence? at h
    split at h
    · next first rest =>
        split at h
        · next hescape =>
            split at h
            · next final tail hdrop =>
                split at h
                · next hfinal =>
                    obtain rfl := Option.some.inj h
                    refine ⟨_, ⟨rest.takeWhile dialect.isParameter,
                      (rest.dropWhile dialect.isParameter).takeWhile dialect.isIntermediate, final,
                      rfl, List.all_eq_true.1 List.all_takeWhile,
                      List.all_eq_true.1 List.all_takeWhile, hfinal⟩, ?_⟩
                    rw [hescape]
                    simp only [List.cons_append, List.append_assoc, List.nil_append]
                    rw [← hdrop, List.takeWhile_append_dropWhile, List.takeWhile_append_dropWhile]
                · cases h
            · cases h
        · cases h
    · cases h
  · rintro ⟨sequence, ⟨parameters, intermediates, final, rfl, hparameters, hintermediates, hfinal⟩,
      rfl⟩
    -- neither the intermediate characters nor the final one are taken for parameters
    have hstop : (intermediates ++ final :: after).dropWhile dialect.isParameter =
        intermediates ++ final :: after := by
      cases intermediates with
      | nil => exact List.dropWhile_cons_of_neg (by simp [(of_isFinal hfinal).1])
      | cons c more =>
          have hc := not_isParameter_of_isIntermediate (hintermediates c List.mem_cons_self)
          exact List.dropWhile_cons_of_neg (by simp [hc])
    have hend : (final :: after).dropWhile dialect.isIntermediate = final :: after :=
      List.dropWhile_cons_of_neg (by simp [(of_isFinal hfinal).2])
    simp only [List.cons_append, List.append_assoc, List.nil_append, afterSequence?, if_true]
    rw [List.dropWhile_append_of_pos hparameters, hstop,
      List.dropWhile_append_of_pos hintermediates, hend]
    exact if_pos hfinal

/-- What stands behind a sequence does not matter to it. -/
theorem IsSequence.afterSequence? (h : dialect.IsSequence text) (after : List Char) :
    dialect.afterSequence? (text ++ after) = some after :=
  afterSequence?_eq_some_iff.2 ⟨text, h, rfl⟩

theorem length_afterSequence? (h : dialect.afterSequence? text = some after) :
    after.length < text.length := by
  obtain ⟨sequence, hsequence, rfl⟩ := afterSequence?_eq_some_iff.1 h
  obtain ⟨rest, rfl⟩ := hsequence.exists_cons
  simp only [List.cons_append, List.length_cons, List.length_append]
  omega

/-- What is a sequence in common use is one in every dialect. -/
theorem IsSequence.ofCommon (h : common.IsSequence text) : dialect.IsSequence text := by
  cases dialect with
  | common => exact h
  | full => exact h.toFull

/-- Colors are switched by sequences of every dialect. -/
theorem IsSequence.code (color : Color) : dialect.IsSequence color.code.toList := by
  cases color with
  | red => exact .ofCommon ⟨['3', '1'], [], 'm', rfl, List.all_eq_true.1 rfl, by simp, rfl⟩
  | gray => exact .ofCommon ⟨['9', '0'], [], 'm', rfl, List.all_eq_true.1 rfl, by simp, rfl⟩

theorem IsSequence.reset : dialect.IsSequence Ansi.reset.toList :=
  .ofCommon ⟨['0'], [], 'm', rfl, List.all_eq_true.1 rfl, by simp, rfl⟩

/-! ### Texts without sequences -/

/-- The text without the control sequences of the dialect, which are found from left to right. -/
def strip (dialect : Dialect) : List Char → List Char
  | [] => []
  | c :: rest =>
      match _h : dialect.afterSequence? (c :: rest) with
      | some after => strip dialect after
      | none => c :: strip dialect rest
termination_by text => text.length
decreasing_by
  · exact length_afterSequence? (by assumption)
  · simp

@[simp] theorem strip_nil (dialect : Dialect) : dialect.strip [] = [] := by
  rw [strip]

theorem strip_of_eq_none {c : Char} (h : dialect.afterSequence? (c :: rest) = none) :
    dialect.strip (c :: rest) = c :: dialect.strip rest := by
  rw [strip]
  split
  · next after hafter => simp [h] at hafter
  · rfl

/-- A sequence is left out, whatever follows it. -/
theorem IsSequence.strip_append (h : dialect.IsSequence text) (rest : List Char) :
    dialect.strip (text ++ rest) = dialect.strip rest := by
  have hafter := h.afterSequence? rest
  obtain ⟨more, rfl⟩ := h.exists_cons
  simp only [List.cons_append] at hafter ⊢
  rw [strip]
  split
  · next found hfound =>
      rw [hafter, Option.some.injEq] at hfound
      rw [hfound]
  · next hnone => simp [hafter] at hnone

/-- Outputs other than terminals leave out the sequences of the full language. -/
theorem strip_full (text : List Char) : full.strip text = Ansi.strip text := by
  fun_induction Ansi.strip text with
  | case1 => exact strip_nil full
  | case2 c rest after hafter ih =>
      rw [← afterSequence?_full] at hafter
      obtain ⟨sequence, hsequence, htext⟩ := afterSequence?_eq_some_iff.1 hafter
      rw [htext, hsequence.strip_append, ih]
  | case3 c rest hnone ih =>
      rw [← afterSequence?_full] at hnone
      rw [strip_of_eq_none hnone, ih]

theorem length_strip_le (dialect : Dialect) (text : List Char) :
    (dialect.strip text).length ≤ text.length := by
  fun_induction strip dialect text with
  | case1 => exact Nat.le_refl 0
  | case2 c rest after hafter ih =>
      exact Nat.le_trans ih (Nat.le_of_lt (length_afterSequence? hafter))
  | case3 c rest hnone ih => exact Nat.succ_le_succ ih

end Dialect

/-! ### Inert texts -/

namespace Inert

variable {c : Char} {text : List Char}

/-- No sequence begins in an inert text, whatever follows it. -/
theorem afterSequence?_eq_none (h : Inert (c :: text)) (rest : List Char) :
    Ansi.afterSequence? (c :: text ++ rest) = none := by
  rw [← Dialect.afterSequence?_full, Option.eq_none_iff_forall_ne_some]
  intro after hafter
  obtain ⟨sequence, hsequence, htext⟩ := Dialect.afterSequence?_eq_some_iff.1 hafter
  rcases List.append_eq_append_iff.1 htext with ⟨more, hmore, -⟩ | ⟨more, hmore, -⟩
  · -- the sequence ends behind the text: without what stands behind it nothing would be left
    have hstrip := h more
    rw [← hmore, ← List.append_nil sequence, ← Dialect.strip_full, hsequence.strip_append,
      Dialect.strip_nil] at hstrip
    cases hstrip
  · -- the sequence ends in the text, which would get shorter
    have hstrip := h.strip_eq
    rw [hmore, ← Dialect.strip_full, hsequence.strip_append] at hstrip
    have hlength := Dialect.length_strip_le .full more
    obtain ⟨tail, rfl⟩ := hsequence.exists_cons
    rw [hstrip] at hlength
    simp only [List.cons_append, List.length_cons, List.length_append] at hlength
    omega

theorem tail (h : Inert (c :: text)) : Inert text := by
  intro rest
  have hstrip := h rest
  have hnone := h.afterSequence?_eq_none rest
  rw [List.cons_append] at hstrip hnone
  rw [strip_of_afterSequence?_eq_none hnone] at hstrip
  exact (List.cons.inj hstrip).2

end Inert

namespace Dialect

variable {dialect : Dialect} {text plain : List Char}

/-- `dialect.Leaves text plain` says that the dialect leaves so much of the text, whatever follows
it. -/
def Leaves (dialect : Dialect) (text plain : List Char) : Prop :=
  ∀ rest, dialect.strip (text ++ rest) = plain ++ dialect.strip rest

theorem leaves_full_iff :
    full.Leaves text plain ↔ ∀ rest, Ansi.strip (text ++ rest) = plain ++ Ansi.strip rest := by
  simp only [Leaves, strip_full]

namespace Leaves

theorem strip_eq (h : dialect.Leaves text plain) : dialect.strip text = plain := by
  simpa using h []

theorem append {more plainMore : List Char} (h : dialect.Leaves text plain)
    (hmore : dialect.Leaves more plainMore) :
    dialect.Leaves (text ++ more) (plain ++ plainMore) := by
  intro rest
  rw [List.append_assoc, h, hmore, List.append_assoc]

/-- Of an inert text everything is left. -/
theorem of_inert (h : Inert text) : dialect.Leaves text text := by
  induction text with
  | nil => exact fun _ => rfl
  | cons c text ih =>
      intro rest
      have hnone : dialect.afterSequence? (c :: (text ++ rest)) = none := by
        rw [Option.eq_none_iff_forall_ne_some]
        intro after hafter
        obtain ⟨sequence, hsequence, htext⟩ := afterSequence?_eq_some_iff.1 hafter
        have hfull := hsequence.toFull.afterSequence? after
        rw [← htext, afterSequence?_full] at hfull
        have hinert := h.afterSequence?_eq_none rest
        rw [List.cons_append, hfull] at hinert
        cases hinert
      rw [List.cons_append, strip_of_eq_none hnone, ih h.tail, List.cons_append]

theorem of_isSequence (h : dialect.IsSequence text) : dialect.Leaves text [] :=
  h.strip_append

/-- Of an inert text in a color the text is left. -/
theorem paint (color : Color) {text : String} (h : Inert text.toList) :
    dialect.Leaves (Ansi.paint color text).toList text.toList := by
  have hcode : dialect.Leaves color.code.toList [] := of_isSequence (.code color)
  have hreset : dialect.Leaves reset.toList [] := of_isSequence .reset
  have hpainted := (hcode.append (of_inert h)).append hreset
  rw [List.nil_append, List.append_nil] at hpainted
  rwa [Ansi.paint, String.toList_append, String.toList_append]

end Leaves

end Dialect

end Calculator.Text.Ansi
