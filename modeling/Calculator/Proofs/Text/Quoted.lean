/-
Textual forms can be told apart.

A quoted text can be read back without knowing which characters are hidden: every escape begins with
a backslash and says what it stands for, and no delimiter stands inside.  So a quoted text can be
told from whatever is behind it, even if that or the text itself looks like a part of the format.
With that the textual form of a token yields everything about the token but its offset, and the
textual form of a log yields its messages.

* `Text.Quoted.hexValue`, `Text.Quoted.hexValue_hexDigits` — the number that hexadecimal digits
  denote;
* `Text.Quoted.unescape?`, `Text.Quoted.unescape?_escape` — **a character is read back from what
  stands for it**;
* `Text.Quoted.encode_append_inj`, `Text.quote_append_inj` — a quoted text determines the text and
  where it ends;
* `Token.describeValue`, `Token.describe_inj` — a textual form determines kind, text and value;
* `DiagnosticLog.describeMore`, `DiagnosticLog.describeMessages_inj` — a textual form determines the
  messages;
* `descriptions_determine` — all this about tokens and logs.
-/

import Calculator.Diagnostic
import Calculator.Proofs.Text.Digit
import Calculator.Token
import Mathlib.Data.List.Basic

set_option relaxedAutoImplicit false
set_option autoImplicit false

namespace Calculator

namespace Text.Quoted

/-! ### Hexadecimal digits -/

/-- The number that a hexadecimal digit in lower case denotes. -/
def hexDigitValue (c : Char) : Nat :=
  if c ≤ '9' then c.toNat - '0'.toNat else c.toNat - 'a'.toNat + 10

/-- The number that hexadecimal digits denote, the most significant one first. -/
def hexValue (digits : List Char) : Nat :=
  digits.foldl (fun value digit => 16 * value + hexDigitValue digit) 0

theorem hexDigitValue_digitChar : ∀ digit < 16, hexDigitValue (Nat.digitChar digit) = digit := by
  decide

theorem hexValue_concat (digits : List Char) (digit : Char) :
    hexValue (digits ++ [digit]) = 16 * hexValue digits + hexDigitValue digit := by
  rw [hexValue, List.foldl_concat, hexValue]

/-- The last digits of a number denote the number if there are enough of them. -/
theorem hexValue_hexDigits {width n : Nat} (h : n < 16 ^ width) :
    hexValue (hexDigits width n) = n := by
  induction width generalizing n with
  | zero =>
      have hzero : n = 0 := by simpa using h
      rw [hzero]
      rfl
  | succ width ih =>
      have hrest : n / 16 < 16 ^ width := Nat.div_lt_of_lt_mul (by rwa [Nat.pow_succ'] at h)
      rw [hexDigits, hexValue_concat, ih hrest, hexDigitValue_digitChar _ (Nat.mod_lt n (by omega))]
      exact Nat.div_add_mod n 16

/-! ### Reading characters back -/

/-- The character whose code point begins the text in hexadecimal, and what follows. -/
def readCodePoint (width : Nat) (text : List Char) : Char × List Char :=
  (Char.ofNat (hexValue (text.take width)), text.drop width)

/-- The character that stands, perhaps escaped, at the beginning of the text, and what follows. -/
def unescape? : List Char → Option (Char × List Char)
  | [] => none
  | '\\' :: 'x' :: rest => some (readCodePoint 2 rest)
  | '\\' :: 'u' :: rest => some (readCodePoint 4 rest)
  | '\\' :: 'U' :: rest => some (readCodePoint 8 rest)
  | '\\' :: 't' :: rest => some ('\t', rest)
  | '\\' :: 'n' :: rest => some ('\n', rest)
  | '\\' :: 'r' :: rest => some ('\r', rest)
  | '\\' :: c :: rest => some (c, rest)
  | c :: rest => some (c, rest)

theorem unescape?_of_ne {c : Char} (h : c ≠ '\\') (rest : List Char) :
    unescape? (c :: rest) = some (c, rest) := by
  rw [unescape?]
  all_goals simp_all

theorem readCodePoint_hexDigits {width : Nat} {c : Char} (h : c.toNat < 16 ^ width)
    (rest : List Char) : readCodePoint width (hexDigits width c.toNat ++ rest) = (c, rest) := by
  have hlength := length_hexDigits width c.toNat
  rw [readCodePoint, List.take_left' hlength, List.drop_left' hlength, hexValue_hexDigits h,
    Char.ofNat_toNat]

/-- A character is read back from its code point, whichever of the three widths that needs. -/
theorem unescape?_codePointEscape (c : Char) (rest : List Char) :
    unescape? (codePointEscape c ++ rest) = some (c, rest) := by
  rw [codePointEscape]
  split_ifs with hbyte hpair
  · exact congrArg some (readCodePoint_hexDigits hbyte rest)
  · exact congrArg some (readCodePoint_hexDigits hpair rest)
  · have hword : c.toNat < 16 ^ 8 := c.val.toNat_lt
    exact congrArg some (readCodePoint_hexDigits hword rest)

theorem exists_codePointEscape_eq_cons (c : Char) :
    ∃ more, codePointEscape c = '\\' :: more := by
  rw [codePointEscape]
  split_ifs <;> exact ⟨_, rfl⟩

/-- What may stand for a character: a backslash and the character itself, or a letter instead, or
the code point, or just the character if it is neither a delimiter nor a backslash. -/
theorem escape_cases (hidden : Char → Bool) (quotes c : Char) :
    (escape hidden quotes c = ['\\', c] ∧ (c = quotes ∨ c = '\\')) ∨
      (∃ letter, escape hidden quotes c = ['\\', letter] ∧
        (c, letter) ∈ [('\t', 't'), ('\n', 'n'), ('\r', 'r')]) ∨
      escape hidden quotes c = codePointEscape c ∨
      (escape hidden quotes c = [c] ∧ c ≠ quotes ∧ c ≠ '\\') := by
  rw [escape]
  split_ifs with hquoted htab hfeed hreturn
  · exact .inl ⟨rfl, hquoted⟩
  · exact .inr (.inl ⟨'t', rfl, by simp [htab]⟩)
  · exact .inr (.inl ⟨'n', rfl, by simp [hfeed]⟩)
  · exact .inr (.inl ⟨'r', rfl, by simp [hreturn]⟩)
  · exact .inr (.inr (.inl rfl))
  · exact .inr (.inr (.inr ⟨rfl, not_or.1 hquoted⟩))

theorem delimiter_cases (text : List Char) : delimiter text = '\'' ∨ delimiter text = '"' := by
  rw [delimiter]
  split
  · exact .inr rfl
  · exact .inl rfl

section Delimiter

variable {hidden : Char → Bool} {quotes : Char} (hquotes : quotes = '\'' ∨ quotes = '"')

include hquotes

/-- A character is read back from what stands for it between delimiters. -/
theorem unescape?_escape (c : Char) (rest : List Char) :
    unescape? (escape hidden quotes c ++ rest) = some (c, rest) := by
  rcases escape_cases hidden quotes c with ⟨hescape, hc⟩ | ⟨letter, hescape, hletter⟩ | hescape |
    ⟨hescape, -, hc⟩ <;> rw [hescape]
  · -- none of the letters that mean something else is a delimiter or a backslash
    rcases hquotes with rfl | rfl <;> rcases hc with rfl | rfl <;> rfl
  · simp only [List.mem_cons, Prod.mk.injEq, List.not_mem_nil, or_false] at hletter
    rcases hletter with ⟨rfl, rfl⟩ | ⟨rfl, rfl⟩ | ⟨rfl, rfl⟩ <;> rfl
  · exact unescape?_codePointEscape c rest
  · exact unescape?_of_ne hc rest

/-- Nothing that stands for a character begins with the delimiter. -/
theorem escape_append_ne_cons (c : Char) (rest more : List Char) :
    escape hidden quotes c ++ rest ≠ quotes :: more := by
  have hbackslash : '\\' ≠ quotes := by
    rcases hquotes with rfl | rfl <;> decide
  intro h
  rcases escape_cases hidden quotes c with ⟨hescape, -⟩ | ⟨letter, hescape, -⟩ | hescape |
    ⟨hescape, hc, -⟩ <;> rw [hescape] at h
  · exact hbackslash (List.head_eq_of_cons_eq h)
  · exact hbackslash (List.head_eq_of_cons_eq h)
  · obtain ⟨digits, hdigits⟩ := exists_codePointEscape_eq_cons c
    rw [hdigits] at h
    exact hbackslash (List.head_eq_of_cons_eq h)
  · exact hc (List.head_eq_of_cons_eq h)

/-- The part between the delimiters determines the text, and the delimiter behind it where it
ends. -/
theorem flatMap_escape_append_inj {first second rest more : List Char}
    (h : first.flatMap (escape hidden quotes) ++ quotes :: rest =
      second.flatMap (escape hidden quotes) ++ quotes :: more) :
    first = second ∧ rest = more := by
  induction first generalizing second with
  | nil =>
      cases second with
      | nil => exact ⟨rfl, List.tail_eq_of_cons_eq h⟩
      | cons d second =>
          rw [List.flatMap_cons, List.append_assoc] at h
          exact absurd h.symm (escape_append_ne_cons hquotes _ _ _)
  | cons c first ih =>
      cases second with
      | nil =>
          rw [List.flatMap_cons, List.append_assoc] at h
          exact absurd h (escape_append_ne_cons hquotes _ _ _)
      | cons d second =>
          rw [List.flatMap_cons, List.append_assoc, List.flatMap_cons, List.append_assoc] at h
          have hread := congrArg unescape? h
          rw [unescape?_escape hquotes, unescape?_escape hquotes, Option.some.injEq,
            Prod.mk.injEq] at hread
          obtain ⟨rfl, hbehind⟩ := hread
          obtain ⟨rfl, hrest⟩ := ih hbehind
          exact ⟨rfl, hrest⟩

end Delimiter

/-- A quoted text determines the text, and where it ends. -/
theorem encode_append_inj {hidden : Char → Bool} {first second rest more : List Char}
    (h : encode hidden first ++ rest = encode hidden second ++ more) :
    first = second ∧ rest = more := by
  simp only [encode, List.cons_append, List.append_assoc, List.nil_append, List.cons.injEq] at h
  obtain ⟨hdelimiter, hbehind⟩ := h
  rw [← hdelimiter] at hbehind
  exact flatMap_escape_append_inj (delimiter_cases first) hbehind

end Text.Quoted

theorem Text.quote_append_inj {hidden : Char → Bool} {first second rest more : String}
    (h : quote first hidden ++ rest = quote second hidden ++ more) :
    first = second ∧ rest = more := by
  have htext := congrArg String.toList h
  simp only [quote, String.toList_append, String.toList_ofList] at htext
  obtain ⟨hfirst, hrest⟩ := Quoted.encode_append_inj htext
  exact ⟨String.toList_injective hfirst, String.toList_injective hrest⟩

/-! ### Tokens -/

namespace Token

/-- What the textual form of the token says about its value. -/
def describeValue (token : Token) : String :=
  match token.value with
  | some value => " -> " ++ toString value
  | none => ""

theorem describe_eq (token : Token) (hidden : Char → Bool) :
    token.describe hidden =
      token.kind.name ++
        ("(" ++ (Text.quote token.text hidden ++ (token.describeValue ++ ")"))) := by
  change token.kind.name ++ "(" ++ Text.quote token.text hidden ++ token.describeValue ++ ")" = _
  simp only [String.append_assoc]

theorem describeValue_inj {first second : Token} (h : first.describeValue = second.describeValue) :
    first.value = second.value := by
  rw [describeValue, describeValue] at h
  cases hfirst : first.value with
  | none =>
      cases hsecond : second.value with
      | none => rfl
      | some value => simp [hfirst, hsecond] at h
  | some value =>
      cases hsecond : second.value with
      | none => simp [hfirst, hsecond] at h
      | some other =>
          simp only [hfirst, hsecond, String.append_right_inj] at h
          exact congrArg some (Text.toString_int_inj h)

/-- The textual form of a token tells its kind, its text and its value. -/
theorem describe_inj {hidden : Char → Bool} {first second : Token}
    (h : first.describe hidden = second.describe hidden) :
    first.kind = second.kind ∧ first.text = second.text ∧ first.value = second.value := by
  have hforms : ∀ token : Token, (token.describe hidden).toList = token.kind.name.toList ++
      '(' :: (Text.quote token.text hidden ++ (token.describeValue ++ ")")).toList := by
    intro token
    rw [describe_eq, String.toList_append, String.toList_append]
    rfl
  have hlist := congrArg String.toList h
  rw [hforms, hforms] at hlist
  obtain ⟨hkind, hbehind⟩ := Kind.name_append_inj (by decide) hlist
  obtain ⟨htext, hvalue⟩ := Text.quote_append_inj (String.toList_injective hbehind)
  rw [String.append_left_inj] at hvalue
  exact ⟨hkind, htext, describeValue_inj hvalue⟩

/-- The textual form of a token tells nothing else. -/
theorem describe_congr {hidden : Char → Bool} {first second : Token}
    (hkind : first.kind = second.kind) (htext : first.text = second.text)
    (hvalue : first.value = second.value) : first.describe hidden = second.describe hidden := by
  rw [describe, describe, hkind, htext, hvalue]

end Token

/-! ### Logs -/

namespace DiagnosticLog

/-- The textual form of the messages behind the first one, with the brackets behind them. -/
def describeMore (hidden : Char → Bool) (messages : List String) : String :=
  String.join (messages.map fun message => ", " ++ Text.quote message hidden) ++ "])"

theorem describeMore_cons (hidden : Char → Bool) (message : String) (messages : List String) :
    describeMore hidden (message :: messages) =
      ", " ++ (Text.quote message hidden ++ describeMore hidden messages) := by
  rw [describeMore, List.map_cons, String.join_cons, describeMore, String.append_assoc,
    String.append_assoc]

/-- Behind a message comes a comma if there is one more, and a bracket if there is not. -/
theorem describeMore_inj {hidden : Char → Bool} {first second : List String}
    (h : describeMore hidden first = describeMore hidden second) : first = second := by
  have hend : ∀ (message : String) (messages : List String),
      describeMore hidden [] ≠ describeMore hidden (message :: messages) := by
    intro message messages hnil
    rw [describeMore_cons] at hnil
    simpa [describeMore] using congrArg String.toList hnil
  induction first generalizing second with
  | nil =>
      cases second with
      | nil => rfl
      | cons other second => exact absurd h (hend other second)
  | cons message first ih =>
      cases second with
      | nil => exact absurd h.symm (hend message first)
      | cons other second =>
          rw [describeMore_cons, describeMore_cons, String.append_right_inj] at h
          obtain ⟨rfl, hmore⟩ := Text.quote_append_inj h
          rw [ih hmore]

theorem describeMessages_eq (hidden : Char → Bool) (messages : List String) :
    describeMessages messages hidden =
      "DiagnosticBag([" ++ (", ".intercalate (messages.map (Text.quote · hidden)) ++ "])") :=
  String.append_assoc

theorem describeMessages_nil (hidden : Char → Bool) :
    describeMessages [] hidden = "DiagnosticBag([" ++ "])" := rfl

/-- The first message stands behind the opening bracket. -/
theorem describeMessages_cons (hidden : Char → Bool) (message : String) (messages : List String) :
    describeMessages (message :: messages) hidden =
      "DiagnosticBag([" ++ (Text.quote message hidden ++ describeMore hidden messages) := by
  rw [describeMessages_eq, String.append_right_inj]
  induction messages generalizing message with
  | nil => rfl
  | cons other messages ih =>
      have hother := ih other
      rw [List.map_cons] at hother
      rw [List.map_cons, List.map_cons, String.intercalate_cons_cons, String.append_assoc, hother,
        describeMore_cons, String.append_assoc]

/-- A quoted text begins with a delimiter and not with a bracket. -/
theorem quote_append_ne (hidden : Char → Bool) (message rest : String) :
    Text.quote message hidden ++ rest ≠ "])" := by
  intro h
  have htext := congrArg String.toList h
  rw [Text.quote, String.toList_append, String.toList_ofList, Text.Quoted.encode] at htext
  have hhead := List.head_eq_of_cons_eq htext
  rcases Text.Quoted.delimiter_cases message.toList with hquotes | hquotes <;>
    rw [hquotes] at hhead <;> exact absurd hhead (by decide)

/-- The textual form of a list of messages tells the messages. -/
theorem describeMessages_inj {hidden : Char → Bool} {first second : List String}
    (h : describeMessages first hidden = describeMessages second hidden) : first = second := by
  cases first with
  | nil =>
      cases second with
      | nil => rfl
      | cons other second =>
          rw [describeMessages_nil, describeMessages_cons, String.append_right_inj] at h
          exact absurd h.symm (quote_append_ne hidden other _)
  | cons message first =>
      cases second with
      | nil =>
          rw [describeMessages_nil, describeMessages_cons, String.append_right_inj] at h
          exact absurd h (quote_append_ne hidden message _)
      | cons other second =>
          rw [describeMessages_cons, describeMessages_cons, String.append_right_inj] at h
          obtain ⟨rfl, hmore⟩ := Text.quote_append_inj h
          rw [describeMore_inj hmore]

end DiagnosticLog

/-! ### Main result -/

/-- Whichever characters are hidden, the textual form of a token tells everything about it but its
offset, and the textual form of a log tells its messages. -/
theorem descriptions_determine (hidden : Char → Bool) :
    (∀ first second : Token,
      first.describe hidden = second.describe hidden ↔
        first.kind = second.kind ∧ first.text = second.text ∧ first.value = second.value) ∧
    (∀ first second : List String,
      DiagnosticLog.describeMessages first hidden = DiagnosticLog.describeMessages second hidden ↔
        first = second) ∧
    ∀ first second : DiagnosticLog,
      first.describe = second.describe ↔ first.messages = second.messages := by
  refine ⟨fun first second => ⟨Token.describe_inj, ?_⟩,
    fun first second => ⟨DiagnosticLog.describeMessages_inj, fun h => h ▸ rfl⟩,
    fun first second => ⟨DiagnosticLog.describeMessages_inj, fun h => ?_⟩⟩
  · rintro ⟨hkind, htext, hvalue⟩
    exact Token.describe_congr hkind htext hvalue
  · exact congrArg (DiagnosticLog.describeMessages ·) h

/-- A text that looks like the end of the text of a token and the value behind it. -/
example :
    Token.describe ⟨.number, 0, "1' -> 2", none⟩ = "NumberToken(\"1' -> 2\")" ∧
      Token.describe ⟨.number, 0, "1", some 2⟩ = "NumberToken('1' -> 2)" :=
  ⟨rfl, rfl⟩

end Calculator
