/-
Token streams.

A token stream is a sequence of tokens followed by the end mark.  Whoever reads it past its end
meets the end mark again and again.

* `TokenStream` — the tokens before the end mark, and the offset of the end mark;
* `TokenStream.get` — the token at an index;
* `TokenStream.toList` — all tokens, the end mark included;
* `TokenStream.withoutTrivia` — the stream without the tokens that the parser never sees.
-/

import Calculator.Token

set_option relaxedAutoImplicit false
set_option autoImplicit false

namespace Calculator

/-- Tokens with an end mark behind them. -/
structure TokenStream where
  /-- The tokens before the end mark. -/
  tokens : Array Token
  /-- The offset of the end mark, which is the length of the text. -/
  endPosition : Nat
deriving DecidableEq

namespace TokenStream

/-- The end mark of the stream. -/
def endToken (stream : TokenStream) : Token :=
  Token.endAt stream.endPosition

/-- All tokens of the stream, ending with the end mark. -/
def toList (stream : TokenStream) : List Token :=
  stream.tokens.toList ++ [stream.endToken]

/-- The number of tokens, the end mark included. -/
def size (stream : TokenStream) : Nat :=
  stream.tokens.size + 1

/-- The token at an index, which is the end mark from the end of the stream on. -/
def get (stream : TokenStream) (index : Nat) : Token :=
  stream.tokens[index]?.getD stream.endToken

/-- The stream without whitespace and invalid tokens. -/
def withoutTrivia (stream : TokenStream) : TokenStream :=
  { stream with tokens := stream.tokens.filter (!·.kind.isTrivia) }

@[simp] theorem length_toList (stream : TokenStream) : stream.toList.length = stream.size := by
  simp [toList, size]

/-- Before the end of the stream `get` is look-up in `toList`. -/
theorem getElem?_toList {stream : TokenStream} {index : Nat} (h : index < stream.size) :
    stream.toList[index]? = some (stream.get index) := by
  simp only [size] at h
  by_cases hlt : index < stream.tokens.size
  · simp [toList, get, hlt, List.getElem?_append_left]
  · have : index = stream.tokens.size := by omega
    simp [toList, get, this]

/-- From the end of the stream on there is nothing but the end mark. -/
theorem get_of_size_le {stream : TokenStream} {index : Nat} (h : stream.size ≤ index + 1) :
    stream.get index = stream.endToken := by
  have hsize : stream.tokens.size ≤ index := by
    simp only [size] at h
    omega
  simp [get, Array.getElem?_eq_none hsize]

theorem get_mem {stream : TokenStream} {index : Nat} (h : index < stream.tokens.size) :
    stream.get index ∈ stream.tokens := by
  simp [get, h]

/-- What is read is a token of the stream or the end mark. -/
theorem get_cases (stream : TokenStream) (index : Nat) :
    stream.get index ∈ stream.tokens ∨ stream.get index = stream.endToken := by
  by_cases h : index < stream.tokens.size
  · exact .inl (get_mem h)
  · refine .inr (get_of_size_le ?_)
    simp only [size]
    omega

/-- Whoever reads past the end meets the last token again. -/
theorem getElem?_toList_min (stream : TokenStream) (index : Nat) :
    stream.toList[min index (stream.size - 1)]? = some (stream.get index) := by
  have hpos : 0 < stream.size := Nat.succ_pos _
  by_cases h : index < stream.size
  · rw [Nat.min_eq_left (by omega), getElem?_toList h]
  · rw [Nat.min_eq_right (by omega), getElem?_toList (by omega), get_of_size_le (by omega),
      get_of_size_le (by omega)]

/-- The tokens at the beginning of the stream, short of the end mark. -/
theorem extract_toList {stream : TokenStream} {stop : Nat} (h : stop ≤ stream.tokens.size) :
    stream.toList.extract 0 stop = stream.tokens.toList.take stop := by
  rw [List.extract_eq_take_drop, Nat.sub_zero, List.drop_zero, toList,
    List.take_append_of_le_length (by simpa using h)]

end TokenStream

end Calculator
