/-
The tokens of a text that the parser sees.

Whitespace and invalid tokens are not shown to the parser.  This module says what is left of a text
without going through its segments: a character of these tokens at the beginning of a text may be
passed over by itself, whatever run it belongs to.  So it does not matter which of these characters
stand in a text, as long as they stand in the same places.

* `Segment.visible` — the tokens that the parser sees;
* `Segment.visible_cons_of_isTrivia`, `Segment.visible_cons_of_not_isTrivia` — **a character that
  the parser does not see is passed over**, and any other one begins a token;
* `Segment.induction_visible` — induction on a text along these two cases;
* `Kind.ChangesTriviaOnly`, `Segment.visible_map` — **changing characters that the parser does not
  see changes nothing that it sees**;
* `Text.blankOut` — spaces in the place of such characters;
* `Diagnostic.isInvalidCharacter`, `Segment.filter_isInvalidCharacter_faults`,
  `Segment.filter_not_isInvalidCharacter_faults` — the faults of a text that come from invalid
  characters, and the others.
-/

import Calculator.Proofs.Lexer.Segmentation

set_option relaxedAutoImplicit false
set_option autoImplicit false

namespace Calculator

namespace Segment

/-! ### Tokens that the parser sees -/

/-- The tokens of the text, which begins at the given offset, without whitespace and invalid
tokens. -/
def visible (text : List Char) (start : Nat) : List Token :=
  (tokens (cut text) start).filter (!·.kind.isTrivia)

@[simp] theorem visible_nil (start : Nat) : visible [] start = [] := by
  rw [visible, cut_nil, tokens, List.filter_nil]

/-- The first segment of a text is passed over if the parser does not see it. -/
theorem visible_of_isTrivia_first {c : Char} (h : (Kind.ofChar c).isTrivia = true)
    (rest : List Char) (start : Nat) :
    visible (c :: rest) start = visible (afterFirst c rest) (start + (first c rest).length) := by
  have hkind : ((first c rest).token start).kind.isTrivia = true := h
  rw [visible, cut_cons, tokens, List.filter_cons_of_neg (by simp [hkind]), visible]

/-- A character that the parser does not see is passed over, also in the middle of a run. -/
theorem visible_cons_of_isTrivia {c : Char} (h : (Kind.ofChar c).isTrivia = true)
    (rest : List Char) (start : Nat) : visible (c :: rest) start = visible rest (start + 1) := by
  rw [visible_of_isTrivia_first h]
  cases hrun : (Kind.ofChar c).isRun with
  | false =>
      have hsingle : afterFirst c rest = rest ∧ (first c rest).length = 1 := by
        simp [afterFirst, afterRun, first, run, length, hrun]
      rw [hsingle.1, hsingle.2]
  | true =>
      cases rest with
      | nil => simp [afterFirst, afterRun]
      | cons d more =>
          by_cases hkind : Kind.ofChar d = Kind.ofChar c
          · -- the run goes on, and what is left of it is passed over as well
            have hmore : afterFirst c (d :: more) = afterFirst d more ∧
                (first c (d :: more)).length = 1 + (first d more).length := by
              simp [afterFirst, afterRun, first, run, length, hrun, hkind, Nat.add_comm]
            rw [visible_of_isTrivia_first (hkind ▸ h), hmore.1, hmore.2, Nat.add_assoc]
          · have hsingle : afterFirst c (d :: more) = d :: more ∧
                (first c (d :: more)).length = 1 := by
              simp [afterFirst, afterRun, first, run, length, hrun, hkind]
            rw [hsingle.1, hsingle.2]

/-- Any other character begins a token. -/
theorem visible_cons_of_not_isTrivia {c : Char} (h : (Kind.ofChar c).isTrivia = false)
    (rest : List Char) (start : Nat) :
    visible (c :: rest) start =
      (first c rest).token start ::
        visible (afterFirst c rest) (start + (first c rest).length) := by
  have hkind : ((first c rest).token start).kind.isTrivia = false := h
  rw [visible, cut_cons, tokens, List.filter_cons_of_pos (by simp [hkind]), visible]

/-- Induction on a text from its end, character by character where the parser does not see anything,
and token by token where it does. -/
theorem induction_visible {motive : List Char → Prop} (nil : motive [])
    (trivia : ∀ c rest, (Kind.ofChar c).isTrivia = true → motive rest → motive (c :: rest))
    (token : ∀ c rest, (Kind.ofChar c).isTrivia = false → motive (afterFirst c rest) →
      motive (c :: rest)) (text : List Char) : motive text := by
  induction hlength : text.length using Nat.strong_induction_on generalizing text with
  | _ length ih =>
      cases text with
      | nil => exact nil
      | cons c rest =>
          rw [List.length_cons] at hlength
          cases htrivia : (Kind.ofChar c).isTrivia with
          | true => exact trivia c rest htrivia (ih _ (by omega) rest rfl)
          | false =>
              have hle := length_afterFirst_le c rest
              exact token c rest htrivia (ih _ (by omega) _ rfl)

/-! ### Changing what the parser does not see -/

end Segment

/-- `ChangesTriviaOnly f` says that the function on characters leaves those alone that the parser
sees, and makes none of the others visible. -/
structure Kind.ChangesTriviaOnly (f : Char → Char) : Prop where
  eq_self : ∀ c, (ofChar c).isTrivia = false → f c = c
  isTrivia : ∀ c, (ofChar c).isTrivia = true → (ofChar (f c)).isTrivia = true

theorem Kind.ChangesTriviaOnly.ofChar_eq_iff {f : Char → Char} (h : ChangesTriviaOnly f)
    {kind : Kind} (hkind : kind.isTrivia = false) (c : Char) :
    ofChar (f c) = kind ↔ ofChar c = kind := by
  cases htrivia : (ofChar c).isTrivia with
  | false => rw [h.eq_self c htrivia]
  | true =>
      have hchanged := h.isTrivia c htrivia
      constructor
      · intro heq
        rw [heq, hkind] at hchanged
        cases hchanged
      · intro heq
        rw [heq, hkind] at htrivia
        cases htrivia

/-- A space in the place of a character that is chosen; any other one stays. -/
def Text.blankOut (chosen : Char → Bool) (c : Char) : Char :=
  if chosen c then ' ' else c

/-- The parser sees neither a character like these nor the space in its place. -/
theorem Kind.ChangesTriviaOnly.blankOut {chosen : Char → Bool}
    (h : ∀ c, chosen c = true → (ofChar c).isTrivia = true) :
    ChangesTriviaOnly (Text.blankOut chosen) := by
  refine ⟨fun c hc => if_neg fun hchosen => ?_, fun c hc => ?_⟩
  · rw [h c hchosen] at hc
    cases hc
  · rw [Text.blankOut]
    split
    · decide
    · exact hc

namespace Segment

variable {f : Char → Char}

/-- A segment that the parser sees stays what it is, and so does its place. -/
theorem first_map (hf : Kind.ChangesTriviaOnly f) {c : Char}
    (h : (Kind.ofChar c).isTrivia = false) (rest : List Char) :
    first (f c) (rest.map f) = first c rest ∧
      afterFirst (f c) (rest.map f) = (afterFirst c rest).map f := by
  rw [hf.eq_self c h]
  cases hrun : (Kind.ofChar c).isRun with
  | false => simp [first, afterFirst, run, afterRun, hrun]
  | true =>
      have hsame : (fun d => decide (Kind.ofChar d = Kind.ofChar c)) ∘ f =
          fun d => decide (Kind.ofChar d = Kind.ofChar c) :=
        funext fun d => decide_eq_decide.2 (hf.ofChar_eq_iff h d)
      have hrest : (rest.takeWhile (Kind.ofChar · = Kind.ofChar c)).map f =
          rest.takeWhile (Kind.ofChar · = Kind.ofChar c) := by
        refine (List.map_congr_left fun d hd => ?_).trans (List.map_id _)
        have hkind := of_decide_eq_true (List.all_eq_true.1 List.all_takeWhile d hd)
        exact hf.eq_self d (by rw [hkind, h])
      constructor
      · rw [first, first, run, run, if_pos hrun, if_pos hrun, List.takeWhile_map, hsame, hrest]
      · rw [afterFirst, afterFirst, afterRun, afterRun, if_pos hrun, if_pos hrun,
          List.dropWhile_map, hsame]

/-- The parser sees the same tokens at the same offsets if only characters are changed that it does
not see, although runs of them may be joined or parted. -/
theorem visible_map (hf : Kind.ChangesTriviaOnly f) (text : List Char) (start : Nat) :
    visible (text.map f) start = visible text start := by
  induction text using induction_visible generalizing start with
  | nil => rfl
  | trivia c rest h ih =>
      rw [List.map_cons, visible_cons_of_isTrivia (hf.isTrivia c h), visible_cons_of_isTrivia h, ih]
  | token c rest h ih =>
      have hkind : (Kind.ofChar (f c)).isTrivia = false := by rwa [hf.eq_self c h]
      obtain ⟨hfirst, hafter⟩ := first_map hf h rest
      rw [List.map_cons, visible_cons_of_not_isTrivia hkind, visible_cons_of_not_isTrivia h, hfirst,
        hafter, ih]

/-! ### Faults -/

/-- Tokens chosen by their kinds are read from the segments of these kinds. -/
theorem map_segment_filter_tokens (choice : Kind → Bool) (segments : List Segment) (start : Nat) :
    ((tokens segments start).filter (choice ·.kind)).map Token.segment =
      segments.filter (choice ·.kind) := by
  conv_rhs => rw [← map_segment_tokens segments start, List.filter_map]
  rfl

/-- The tokens that the parser sees are read from the segments that it sees. -/
theorem map_segment_visible (text : List Char) (start : Nat) :
    (visible text start).map Token.segment = (cut text).filter (!·.kind.isTrivia) :=
  map_segment_filter_tokens (!·.isTrivia) (cut text) start

/-- Nothing that the parser does not see keeps a text from being read. -/
theorem readable_map (hf : Kind.ChangesTriviaOnly f) {text : List Char} (h : Readable text) :
    Readable (text.map f) := by
  intro segment hmem
  refine Bool.eq_false_iff.2 fun hoverlong => ?_
  have hnumber := (isOverlong_iff.1 hoverlong).1
  have hseen : segment ∈ (cut (text.map f)).filter (!·.kind.isTrivia) :=
    List.mem_filter.2 ⟨hmem, by rw [hnumber]; rfl⟩
  rw [← map_segment_visible _ 0, visible_map hf, map_segment_visible] at hseen
  rw [h segment (List.mem_filter.1 hseen).1] at hoverlong
  cases hoverlong

/-- Segments may be left out if nothing is noted about them. -/
theorem flatMap_filter {choice : Segment → Bool} {notes : Segment → List Diagnostic}
    (h : ∀ segment, choice segment = false → notes segment = []) (segments : List Segment) :
    (segments.filter choice).flatMap notes = segments.flatMap notes := by
  induction segments with
  | nil => rfl
  | cons segment rest ih =>
      cases hchoice : choice segment with
      | true => rw [List.filter_cons_of_pos hchoice, List.flatMap_cons, List.flatMap_cons, ih]
      | false =>
          rw [List.filter_cons_of_neg (by simp [hchoice]), List.flatMap_cons, h segment hchoice,
            List.nil_append, ih]

end Segment

/-- Is the diagnostic about an invalid character? -/
def Diagnostic.isInvalidCharacter : Diagnostic → Bool
  | invalidCharacter _ => true
  | _ => false

namespace Segment

/-- What is noted about a segment is about an invalid character exactly if the parser does not see
the segment. -/
theorem isInvalidCharacter_of_mem {segment : Segment} {diagnostic : Diagnostic}
    (h : diagnostic ∈ segment.diagnostics) :
    diagnostic.isInvalidCharacter = segment.kind.isTrivia := by
  rcases cases_of_mem_diagnostics h with ⟨hkind, rfl⟩ | ⟨hkind, rfl⟩ <;> rw [hkind] <;> rfl

/-- The faults in a text that do not come from invalid characters are those that the parser sees. -/
theorem filter_not_isInvalidCharacter_faults (text : List Char) :
    (faults text).toList.filter (!·.isInvalidCharacter) =
      ((cut text).filter (!·.kind.isTrivia)).flatMap diagnostics := by
  have hunseen : ∀ segment : Segment, (!segment.kind.isTrivia) = false →
      segment.diagnostics.filter (!·.isInvalidCharacter) = [] := fun segment hkind =>
    List.filter_eq_nil_iff.2 fun diagnostic hmem => by
      simpa [isInvalidCharacter_of_mem hmem] using hkind
  rw [faults, DiagnosticLog.toList_ofList, List.filter_flatMap, ← flatMap_filter hunseen]
  refine List.flatMap_congr fun segment hsegment => List.filter_eq_self.2 fun diagnostic hmem => ?_
  rw [isInvalidCharacter_of_mem hmem]
  exact (List.mem_filter.1 hsegment).2

/-- What is noted about invalid characters in a segment: one diagnostic for each of them. -/
theorem WellFormed.filter_isInvalidCharacter {segment : Segment} (h : segment.WellFormed) :
    segment.diagnostics.filter (·.isInvalidCharacter) =
      (segment.text.filter (Kind.ofChar · = .invalid)).map
        fun c => .invalidCharacter (String.singleton c) := by
  by_cases hkind : segment.kind = .invalid
  · obtain ⟨c, hc⟩ := h.singleton (by rw [hkind]; rfl)
    have hinvalid : Kind.ofChar c = .invalid := (h.kind_eq c (by simp [hc])).trans hkind
    have hnoted : segment.diagnostics = [.invalidCharacter (String.singleton c)] := by
      simp only [diagnostics, hkind, hc, String.singleton_eq_ofList]
    rw [hnoted, hc]
    simp [hinvalid, Diagnostic.isInvalidCharacter]
  · have hnone : segment.diagnostics.filter (·.isInvalidCharacter) = [] :=
      List.filter_eq_nil_iff.2 fun diagnostic hmem => by
        rcases cases_of_mem_diagnostics hmem with ⟨hinvalid, -⟩ | ⟨-, rfl⟩
        · exact absurd hinvalid hkind
        · simp [Diagnostic.isInvalidCharacter]
    have hother : segment.text.filter (Kind.ofChar · = .invalid) = [] :=
      List.filter_eq_nil_iff.2 fun c hc => by simp [h.kind_eq c hc, hkind]
    rw [hnone, hother, List.map_nil]

/-- The faults that come from invalid characters: there is one for each of these, in their order. -/
theorem filter_isInvalidCharacter_faults (text : List Char) :
    (faults text).toList.filter (·.isInvalidCharacter) =
      (text.filter (Kind.ofChar · = .invalid)).map
        fun c => .invalidCharacter (String.singleton c) := by
  have hcut : ∀ segments : List Segment, (∀ segment ∈ segments, segment.WellFormed) →
      (segments.flatMap diagnostics).filter (·.isInvalidCharacter) =
        ((segments.map Segment.text).flatten.filter (Kind.ofChar · = .invalid)).map
          fun c => .invalidCharacter (String.singleton c) := by
    intro segments hwellFormed
    induction segments with
    | nil => rfl
    | cons segment rest ih =>
        obtain ⟨hsegment, hrest⟩ := List.forall_mem_cons.1 hwellFormed
        rw [List.flatMap_cons, List.filter_append, ih hrest, hsegment.filter_isInvalidCharacter,
          List.map_cons, List.flatten_cons, List.filter_append, List.map_append]
  have htext := hcut (cut text) fun segment hmem => wellFormed_of_mem_cut hmem
  rwa [flatten_cut, ← DiagnosticLog.toList_ofList ((cut text).flatMap diagnostics)] at htext

end Segment

end Calculator
