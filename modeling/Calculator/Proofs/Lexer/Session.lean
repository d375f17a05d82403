/-
A lexer that several users share.

The users of a lexer move one offset and fill one log, in any order: some read tokens, some pull
iterators, which start the lexer over when they are pulled for the first time, some drain it.  A run
of digits that cannot be read is passed without a diagnostic.  Whatever they do, the lexer always
stands between two segments of its text, and its log holds the faults of the segments before it.

* `Lexer.behind`, `Lexer.AtBoundary` — the lexer between two segments;
* `Lexer.ReadsOn`, `Lexer.next_readsOn` — **what reading on from there yields**;
* `Lexer.readToEnd`, `Lexer.drain_eq_readToEnd` — draining is reading on to the end mark;
* `Lexer.Session.Reaches`, `Lexer.Session.atBoundary_perform` — the states of a session, and **what
  every step preserves**;
* `Lexer.Session.shared_lexer_consistent` — what holds in every state.
-/

import Calculator.Lexer.Session
import Calculator.Proofs.Lexer.Segmentation

set_option relaxedAutoImplicit false
set_option autoImplicit false

namespace Calculator

/-! ### Boundaries between segments -/

namespace Segment

@[simp] theorem totalLength_append (first second : List Segment) :
    totalLength (first ++ second) = totalLength first + totalLength second := by
  induction first with
  | nil => simp [totalLength]
  | cons segment first ih => simp [totalLength, ih, Nat.add_assoc]

theorem length_flatten_text (segments : List Segment) :
    (segments.map Segment.text).flatten.length = totalLength segments := by
  induction segments with
  | nil => rfl
  | cons segment segments ih => simp [totalLength, ih, length]

/-- A run of digits that cannot be read is passed in silence. -/
theorem diagnostics_of_isOverlong {segment : Segment} (h : segment.isOverlong = true) :
    segment.diagnostics = [] := by
  simp [diagnostics, (isOverlong_iff.1 h).1, h]

variable {text : List Char} {read unread : List Segment}

/-- Behind a boundary stand the texts of the segments that are to come. -/
theorem drop_totalLength (h : cut text = read ++ unread) :
    text.drop (totalLength read) = (unread.map Segment.text).flatten := by
  rw [← flatten_cut text, h, List.map_append, List.flatten_append, ← length_flatten_text,
    List.drop_left]

/-- What stands behind a boundary is cut as it was in the whole text. -/
theorem cut_drop_totalLength (h : cut text = read ++ unread) :
    cut (text.drop (totalLength read)) = unread := by
  rw [drop_totalLength h]
  have hapart := apart_cut text
  rw [h] at hapart
  refine cut_flatten (fun segment hmem => ?_) hapart.right_of_append
  exact wellFormed_of_mem_cut (h ▸ List.mem_append_right read hmem)

end Segment

namespace Lexer

/-- The lexer of the text behind the segments `read`, whose faults it has noted. -/
def behind (text : List Char) (read : List Segment) : Lexer :=
  { text, position := Segment.totalLength read
    diagnostics := .ofList (read.flatMap Segment.diagnostics) }

/-- Does the lexer stand between two segments of the text, with the faults before it noted and no
others? -/
def AtBoundary (text : List Char) (lexer : Lexer) : Prop :=
  ∃ read unread, Segment.cut text = read ++ unread ∧ lexer = behind text read

@[simp] theorem reset_behind (text : List Char) (read : List Segment) :
    (behind text read).reset = behind text [] := rfl

/-! ### Reading on -/

/-- `ReadsOn text read unread answer after` says what reading on yields behind the segments `read`
of the text, if the segments `unread` are to come, and how it leaves the lexer.  There is the end
mark, which stays where it is, or a segment, which is left behind: its token is the answer, unless
it is a run of more than 4300 digits. -/
inductive ReadsOn (text : List Char) (read : List Segment) :
    List Segment → Except TooManyDigits Token → Lexer → Prop
  | atEnd : ReadsOn text read [] (.ok (Token.endAt text.length)) (behind text read)
  | token {segment : Segment} {unread : List Segment} :
      ¬(segment.kind = .number ∧ 4300 < segment.length) →
      ReadsOn text read (segment :: unread) (.ok (segment.token (Segment.totalLength read)))
        (behind text (read ++ [segment]))
  | tooManyDigits {segment : Segment} {unread : List Segment} :
      segment.kind = .number → 4300 < segment.length →
      ReadsOn text read (segment :: unread) (.error ⟨segment.length⟩)
        (behind text (read ++ [segment]))

section Reading

variable {text : List Char} {read unread : List Segment} {segment : Segment}

theorem cut_rest_behind (h : Segment.cut text = read ++ unread) :
    Segment.cut (behind text read).rest = unread :=
  Segment.cut_drop_totalLength h

/-- Behind all segments there is the end mark. -/
theorem next_behind_nil (h : Segment.cut text = read) :
    (behind text read).next = (.ok (Token.endAt text.length), behind text read) := by
  have hcut : Segment.cut (behind text read).rest = [] :=
    cut_rest_behind (by rw [h, List.append_nil])
  have hlength : Segment.totalLength read = text.length := by
    rw [← h, Segment.totalLength_cut]
  cases hrest : (behind text read).rest with
  | nil =>
      simp only [next, hrest]
      rw [← hlength]
      rfl
  | cons c rest =>
      rw [hrest, Segment.cut_cons] at hcut
      cases hcut

/-- A segment that is to come is left behind, and read if that is possible. -/
theorem next_behind_cons (h : Segment.cut text = read ++ segment :: unread) :
    (behind text read).next =
      (if segment.isOverlong then .error ⟨segment.length⟩
        else .ok (segment.token (Segment.totalLength read)), behind text (read ++ [segment])) := by
  have hcut := cut_rest_behind h
  cases hrest : (behind text read).rest with
  | nil =>
      rw [hrest, Segment.cut_nil] at hcut
      cases hcut
  | cons c rest =>
      rw [hrest, Segment.cut_cons, List.cons.injEq] at hcut
      obtain ⟨rfl, -⟩ := hcut
      have hlog : (behind text read).diagnostics.extend (Segment.first c rest).diagnostics =
          (behind text (read ++ [Segment.first c rest])).diagnostics :=
        DiagnosticLog.ext_toList (by simp [behind])
      have hposition : Segment.totalLength read + (Segment.first c rest).length =
          Segment.totalLength (read ++ [Segment.first c rest]) := by
        simp [Segment.totalLength]
      simp only [next, hrest, hlog]
      simp only [behind, hposition]
      split <;> rfl

/-- What the next token is, and where it leaves the lexer. -/
theorem next_readsOn (h : Segment.cut text = read ++ unread) :
    ReadsOn text read unread (behind text read).next.1 (behind text read).next.2 := by
  cases unread with
  | nil =>
      rw [next_behind_nil (by rw [h, List.append_nil])]
      exact .atEnd
  | cons segment unread =>
      rw [next_behind_cons h]
      by_cases hlong : segment.isOverlong = true
      · obtain ⟨hnumber, hdigits⟩ := Segment.isOverlong_iff.1 hlong
        rw [if_pos hlong]
        exact .tooManyDigits hnumber hdigits
      · rw [if_neg hlong]
        exact .token fun hdigits => hlong (Segment.isOverlong_iff.2 hdigits)

/-- Reading on never leaves the boundaries between the segments. -/
theorem ReadsOn.atBoundary {answer : Except TooManyDigits Token} {after : Lexer}
    (h : ReadsOn text read unread answer after) (hcut : Segment.cut text = read ++ unread) :
    AtBoundary text after := by
  cases h with
  | atEnd => exact ⟨read, [], hcut, rfl⟩
  | @token segment unread _ => exact ⟨read ++ [segment], unread, by rw [hcut]; simp, rfl⟩
  | @tooManyDigits segment unread _ _ => exact ⟨read ++ [segment], unread, by rw [hcut]; simp, rfl⟩

end Reading

/-! ### Reading to the end -/

/-- A token other than the end mark takes characters away from those to come. -/
theorem length_rest_next_lt {lexer after : Lexer} {token : Token}
    (h : lexer.next = (.ok token, after)) (hkind : token.kind ≠ .endOfFile) :
    after.rest.length < lexer.rest.length := by
  cases hrest : lexer.rest with
  | nil =>
      simp only [next, hrest, Prod.mk.injEq, Except.ok.injEq] at h
      rw [← h.1] at hkind
      exact absurd rfl hkind
  | cons c rest =>
      have hlength : (lexer.text.drop lexer.position).length = rest.length + 1 := by
        rw [← List.length_cons, ← hrest, Lexer.rest]
      have hposition : after.text = lexer.text ∧
          after.position = lexer.position + (Segment.first c rest).length := by
        simp only [next, hrest] at h
        split at h
        · cases h
        · rw [Prod.mk.injEq] at h
          rw [← h.2]
          exact ⟨rfl, rfl⟩
      have hpos : 0 < (Segment.first c rest).length := Nat.succ_pos _
      rw [Lexer.rest, hposition.1, hposition.2, List.length_cons]
      simp only [List.length_drop] at hlength ⊢
      omega

/-- Reads tokens up to the end mark, or up to a segment that cannot be read. -/
def readToEnd (lexer : Lexer) : Except TooManyDigits (List Token) × Lexer :=
  match _hnext : lexer.next with
  | (.error fault, after) => (.error fault, after)
  | (.ok token, after) =>
      if _hkind : token.kind = .endOfFile then (.ok [token], after)
      else
        let (tokens, last) := readToEnd after
        (tokens.map (token :: ·), last)
termination_by lexer.rest.length
decreasing_by exact length_rest_next_lt _hnext _hkind

theorem readToEnd_eq (lexer : Lexer) :
    lexer.readToEnd =
      match lexer.next with
      | (.error fault, after) => (.error fault, after)
      | (.ok token, after) =>
          if token.kind = .endOfFile then (.ok [token], after)
          else (after.readToEnd.1.map (token :: ·), after.readToEnd.2) := by
  rw [readToEnd]
  split <;> simp_all

section Draining

variable {text : List Char} {read unread : List Segment}

/-- Behind all segments there is only the end mark to be read. -/
theorem readToEnd_behind_nil (h : Segment.cut text = read) :
    (behind text read).readToEnd = (.ok [Token.endAt text.length], behind text read) := by
  rw [readToEnd_eq, next_behind_nil h]
  rfl

/-- A segment that cannot be read ends the reading. -/
theorem readToEnd_behind_overlong {segment : Segment}
    (h : Segment.cut text = read ++ segment :: unread) (hlong : segment.isOverlong = true) :
    (behind text read).readToEnd = (.error ⟨segment.length⟩, behind text (read ++ [segment])) := by
  rw [readToEnd_eq, next_behind_cons h, if_pos hlong]

/-- The tokens of the segments that can be read come one after the other. -/
theorem readToEnd_behind_append {readable : List Segment}
    (h : Segment.cut text = read ++ (readable ++ unread))
    (hreadable : ∀ segment ∈ readable, segment.isOverlong = false) :
    (behind text read).readToEnd =
      ((behind text (read ++ readable)).readToEnd.1.map
          (Segment.tokens readable (Segment.totalLength read) ++ ·),
        (behind text (read ++ readable)).readToEnd.2) := by
  induction readable generalizing read with
  | nil =>
      rw [List.append_nil]
      cases hend : (behind text read).readToEnd with
      | mk answer after => cases answer <;> rfl
  | cons segment readable ih =>
      have hsegment : segment.isOverlong = false := hreadable segment List.mem_cons_self
      have hmem : segment ∈ Segment.cut text := by simp [h]
      have hkind : (segment.token (Segment.totalLength read)).kind ≠ .endOfFile :=
        (Segment.wellFormed_iff_spells.1 (Segment.wellFormed_of_mem_cut hmem)).1
      have hrest : Segment.cut text = (read ++ [segment]) ++ (readable ++ unread) := by
        rw [h]
        simp
      rw [readToEnd_eq, next_behind_cons h, hsegment]
      simp only [Bool.false_eq_true, ↓reduceIte]
      have hmore : ∀ other ∈ readable, other.isOverlong = false :=
        fun other hother => hreadable other (List.mem_cons_of_mem _ hother)
      rw [if_neg hkind, ih hrest hmore, List.append_assoc, List.singleton_append, Segment.tokens,
        Segment.totalLength_append]
      cases (behind text (read ++ segment :: readable)).readToEnd with
      | mk answer after => cases answer <;> rfl

/-- A text in which every segment can be read is read to its end mark. -/
theorem readToEnd_of_readable (h : Segment.Readable text) :
    (behind text []).readToEnd =
      (.ok (Segment.stream text).toList, behind text (Segment.cut text)) := by
  have hcut : Segment.cut text = [] ++ (Segment.cut text ++ []) := by simp
  rw [readToEnd_behind_append hcut h, List.nil_append, readToEnd_behind_nil rfl,
    Segment.toList_stream]
  rfl

/-- Wherever the reading ends, it ends between two segments. -/
theorem atBoundary_readToEnd (h : Segment.cut text = read ++ unread) :
    AtBoundary text (behind text read).readToEnd.2 := by
  induction unread generalizing read with
  | nil =>
      rw [readToEnd_behind_nil (by rw [h, List.append_nil])]
      exact ⟨read, [], h, rfl⟩
  | cons segment unread ih =>
      have hrest : Segment.cut text = (read ++ [segment]) ++ unread := by
        rw [h]
        simp
      cases hlong : segment.isOverlong with
      | true =>
          rw [readToEnd_behind_overlong h hlong]
          exact ⟨read ++ [segment], unread, hrest, rfl⟩
      | false =>
          have hstep : Segment.cut text = read ++ ([segment] ++ unread) := h
          rw [readToEnd_behind_append hstep (by simp [hlong])]
          exact ih hrest

/-- The log of a lexer that has started over and has passed the segments. -/
theorem extend_clear_diagnostics (lexer : Lexer) (read : List Segment) :
    lexer.diagnostics.clear.extend (read.flatMap Segment.diagnostics) =
      (behind lexer.text read).diagnostics :=
  DiagnosticLog.ext_toList (by simp [behind])

/-- Draining a lexer is starting it over and reading on to the end mark. -/
theorem drain_eq_readToEnd (lexer : Lexer) :
    (lexer.drain.1.map TokenStream.toList, lexer.drain.2) = lexer.reset.readToEnd := by
  have hreset : lexer.reset = behind lexer.text [] := rfl
  rw [hreset, drain]
  cases hfind : (Segment.cut lexer.text).find? Segment.isOverlong with
  | none =>
      have hreadable : ∀ segment ∈ Segment.cut lexer.text, segment.isOverlong = false :=
        fun segment hmem => Bool.eq_false_iff.2 (List.find?_eq_none.1 hfind segment hmem)
      have htake : (Segment.cut lexer.text).takeWhile (!·.isOverlong) = Segment.cut lexer.text :=
        List.takeWhile_eq_self_iff.2 fun segment hmem => by simp [hreadable segment hmem]
      rw [readToEnd_of_readable hreadable, htake, extend_clear_diagnostics]
      simp only [Segment.totalLength_cut]
      rw [behind, Segment.totalLength_cut]
      rfl
  | some segment =>
      obtain ⟨hlong, readable, unread, hcut, hbefore⟩ := List.find?_eq_some_iff_append.1 hfind
      have hreadable : ∀ other ∈ readable, other.isOverlong = false :=
        fun other hmem => by simpa using hbefore other hmem
      have htake : (Segment.cut lexer.text).takeWhile (!·.isOverlong) = readable := by
        rw [hcut, List.takeWhile_append_of_pos hbefore]
        simp [hlong]
      have hend : (behind lexer.text []).readToEnd =
          (.error ⟨segment.length⟩, behind lexer.text (readable ++ [segment])) := by
        rw [readToEnd_behind_append hcut hreadable, List.nil_append,
          readToEnd_behind_overlong hcut hlong]
        rfl
      rw [hend, htake, extend_clear_diagnostics]
      simp [behind, Segment.totalLength, Segment.diagnostics_of_isOverlong hlong]
      rfl

end Draining

/-! ### Iterators -/

namespace Iterator

/-- Where an iterator stands that has got the answer: it has met the end mark or a segment that
cannot be read, or it goes on. -/
def after : Except TooManyDigits Token → Iterator
  | .ok token => if token.kind = .endOfFile then exhausted else running
  | .error _ => exhausted

theorem advance_eq (lexer : Lexer) :
    advance lexer =
      { token := lexer.next.1.map some
        iterator := after lexer.next.1
        lexer := lexer.next.2 } := by
  rw [advance]
  cases lexer.next with
  | mk answer last => cases answer <;> rfl

end Iterator

/-! ### Sessions -/

namespace Session

/-- `Reaches text session` says that the users of a lexer of the text come to this state. -/
inductive Reaches (text : String) : Session → Prop
  | start : Reaches text { lexer := .ofText text }
  | step {session : Session} (step : Step) :
      Reaches text session → Reaches text (session.perform step).2

/-- Asking for the next token is a reading as described, and does not touch the iterators. -/
def Reads (session : Session) (reading : Except TooManyDigits Token → Lexer → Prop) : Prop :=
  ∃ answer after, reading answer after ∧
    session.perform .next = (answer.map .token, { session with lexer := after })

/-- Pulling the iterator is a reading as described, and does not touch the other iterators. -/
def Pulls (session : Session) (index : Nat)
    (reading : Except TooManyDigits Token → Lexer → Prop) : Prop :=
  ∃ answer after, reading answer after ∧
    session.perform (.pull index) =
      (answer.map .token,
        { lexer := after
          iterators := session.iterators.setIfInBounds index (.after answer) })

section Steps

variable {text : List Char} {read unread : List Segment} {session : Session} {index : Nat}

theorem reads_of_behind (hcut : Segment.cut text = read ++ unread)
    (hlexer : session.lexer = behind text read) :
    session.Reads (ReadsOn text read unread) := by
  refine ⟨session.lexer.next.1, session.lexer.next.2, ?_, rfl⟩
  rw [hlexer]
  exact next_readsOn hcut

/-- Whoever pulls an iterator gets the next token of the lexer that the iterator starts from. -/
theorem perform_pull_of_advance {iterator : Iterator} {lexer : Lexer}
    (hiterator : session.iterators[index]? = some iterator)
    (hpull : iterator.pull session.lexer = Iterator.advance lexer) :
    session.perform (.pull index) =
      (lexer.next.1.map .token,
        { lexer := lexer.next.2
          iterators := session.iterators.setIfInBounds index (.after lexer.next.1) }) := by
  simp only [perform, hiterator, Option.getD_some, hpull, Iterator.advance_eq]
  cases lexer.next.1 <;> rfl

/-- An iterator that is running goes on from wherever the lexer is. -/
theorem pulls_running (hcut : Segment.cut text = read ++ unread)
    (hlexer : session.lexer = behind text read)
    (hiterator : session.iterators[index]? = some .running) :
    session.Pulls index (ReadsOn text read unread) := by
  refine ⟨session.lexer.next.1, session.lexer.next.2, ?_, perform_pull_of_advance hiterator rfl⟩
  rw [hlexer]
  exact next_readsOn hcut

/-- An iterator that is pulled for the first time starts the lexer over. -/
theorem pulls_fresh (hlexer : session.lexer = behind text read)
    (hiterator : session.iterators[index]? = some .fresh) :
    session.Pulls index (ReadsOn text [] (Segment.cut text)) := by
  refine ⟨session.lexer.reset.next.1, session.lexer.reset.next.2, ?_,
    perform_pull_of_advance hiterator rfl⟩
  rw [hlexer, reset_behind]
  exact next_readsOn rfl

/-- An iterator that is exhausted, or that was never made, changes nothing. -/
theorem perform_pull_exhausted (h : session.iterators[index]?.getD .exhausted = .exhausted) :
    session.perform (.pull index) = (.ok .exhausted, session) := by
  have hset : session.iterators.setIfInBounds index .exhausted = session.iterators := by
    rcases Option.getD_eq_iff.1 h with hsome | ⟨hnone, -⟩
    · obtain ⟨hindex, hget⟩ := Array.getElem?_eq_some_iff.1 hsome
      rw [← hget, Array.setIfInBounds, dif_pos hindex, Array.set_getElem_self]
    · exact Array.setIfInBounds_eq_of_size_le (Array.getElem?_eq_none_iff.1 hnone)
  simp only [perform, h, Iterator.pull, hset]
  rfl

/-- Draining starts the lexer over and reads on to the end mark. -/
theorem perform_drain (hlexer : session.lexer = behind text read) :
    ∃ drained : Except TooManyDigits TokenStream,
      drained.map TokenStream.toList = (behind text []).readToEnd.1 ∧
        session.perform .drain =
          (drained.map .tokens, { session with lexer := (behind text []).readToEnd.2 }) := by
  have hdrain := drain_eq_readToEnd session.lexer
  rw [hlexer, reset_behind, ← hlexer] at hdrain
  rw [← hdrain]
  exact ⟨session.lexer.drain.1, rfl, rfl⟩

/-- No step leaves the boundaries between the segments. -/
theorem atBoundary_perform (h : AtBoundary text session.lexer) (step : Step) :
    AtBoundary text (session.perform step).2.lexer := by
  obtain ⟨read, unread, hcut, hlexer⟩ := h
  cases step with
  | next =>
      obtain ⟨answer, after, hreads, hperform⟩ := reads_of_behind hcut hlexer
      rw [hperform]
      exact hreads.atBoundary hcut
  | current => exact ⟨read, unread, hcut, hlexer⟩
  | iterate => exact ⟨read, unread, hcut, hlexer⟩
  | pull index =>
      cases hiterator : session.iterators[index]?.getD .exhausted with
      | exhausted =>
          rw [perform_pull_exhausted hiterator]
          exact ⟨read, unread, hcut, hlexer⟩
      | fresh =>
          have hfresh : session.iterators[index]? = some .fresh := by
            simpa [Option.getD_eq_iff] using hiterator
          obtain ⟨answer, after, hreads, hperform⟩ := pulls_fresh hlexer hfresh
          rw [hperform]
          exact hreads.atBoundary rfl
      | running =>
          have hrunning : session.iterators[index]? = some .running := by
            simpa [Option.getD_eq_iff] using hiterator
          obtain ⟨answer, after, hreads, hperform⟩ := pulls_running hcut hlexer hrunning
          rw [hperform]
          exact hreads.atBoundary hcut
  | drain =>
      obtain ⟨drained, -, hperform⟩ := perform_drain hlexer
      rw [hperform]
      exact atBoundary_readToEnd (List.nil_append (Segment.cut text)).symm

end Steps

/-- In every state of a session the lexer stands between two segments. -/
theorem Reaches.atBoundary {text : String} {session : Session} (h : Reaches text session) :
    AtBoundary text.toList session.lexer := by
  induction h with
  | start => exact ⟨[], Segment.cut text.toList, rfl, rfl⟩
  | step step _ ih => exact atBoundary_perform ih step

/-! ### Main result -/

/-- Whatever the users of a lexer do, its offset is that of a boundary between two segments of the
text, and it has noted the faults of the segments before the boundary, in their order.  The next
token, for whoever asks for it, is that of the segment behind the boundary; only an iterator that is
pulled for the first time starts over, and one that is exhausted changes nothing.  Hence whoever
drains the lexer gets what reading a new lexer of the text to its end yields. -/
theorem shared_lexer_consistent (text : String) (session : Session) (h : Reaches text session) :
    ∃ read unread, Segment.cut text.toList = read ++ unread ∧
      session.lexer.position = Segment.totalLength read ∧
      session.lexer.position ≤ text.length ∧
      session.lexer.diagnostics.messages =
        (read.flatMap Segment.diagnostics).map Diagnostic.message ∧
      session.Reads (ReadsOn text.toList read unread) ∧
      (∀ index, session.iterators[index]? = some .running →
        session.Pulls index (ReadsOn text.toList read unread)) ∧
      (∀ index, session.iterators[index]? = some .fresh →
        session.Pulls index (ReadsOn text.toList [] (Segment.cut text.toList))) ∧
      (∀ index, session.iterators[index]? = some .exhausted →
        session.perform (.pull index) = (.ok .exhausted, session)) ∧
      ∃ drained : Except TooManyDigits TokenStream,
        drained.map TokenStream.toList = (ofText text).readToEnd.1 ∧
        session.perform .drain =
          (drained.map .tokens, { session with lexer := (ofText text).readToEnd.2 }) := by
  obtain ⟨read, unread, hcut, hlexer⟩ := h.atBoundary
  have hposition : session.lexer.position = Segment.totalLength read := by
    rw [hlexer]
    rfl
  refine ⟨read, unread, hcut, hposition, ?_, ?_, reads_of_behind hcut hlexer, ?_, ?_, ?_,
    perform_drain hlexer⟩
  · have hlength := congrArg Segment.totalLength hcut
    rw [Segment.totalLength_cut, Segment.totalLength_append, String.length_toList] at hlength
    omega
  · rw [hlexer, behind, DiagnosticLog.messages, DiagnosticLog.toList_ofList]
  · intro index hrunning
    exact pulls_running hcut hlexer hrunning
  · intro index hfresh
    exact pulls_fresh hlexer hfresh
  · intro index hexhausted
    exact perform_pull_exhausted (by rw [hexhausted]; rfl)

/-- Two iterators and a user without one share the lexer of `12  #345`.  The second iterator has
started it over behind the number in front, and the other two have then read the blanks and the
invalid character, which is noted once; what is next for the second iterator is the number at the
end. -/
theorem shared_lexer_consistent_interleaved :
    ∃ session read unread, Reaches "12  #345" session ∧
      session.iterators[1]? = some .running ∧
      Segment.cut "12  #345".toList = read ++ unread ∧ Segment.totalLength read = 5 ∧
      session.lexer.diagnostics.messages = ["Invalid character input '#'"] ∧
      session.Pulls 1 (ReadsOn "12  #345".toList read unread) ∧
      (session.perform (.pull 1)).1 = .ok (.token ⟨.number, 5, "345", some 345⟩) := by
  have hstart : Reaches "12  #345" { lexer := .ofText "12  #345" } := .start
  have hreaches := Reaches.step (.pull 0) (.step .next (.step (.pull 1) (.step (.pull 0)
    (.step .iterate (.step .iterate hstart)))))
  obtain ⟨read, unread, hcut, hposition, -, -, -, hrunning, -⟩ :=
    shared_lexer_consistent _ _ hreaches
  have hiterator := hrunning 1 (by decide +kernel)
  refine ⟨_, read, unread, hreaches, by decide +kernel, hcut, ?_, by decide +kernel, hiterator,
    by decide +kernel⟩
  rw [← hposition]
  decide +kernel

end Session

end Lexer

end Calculator
