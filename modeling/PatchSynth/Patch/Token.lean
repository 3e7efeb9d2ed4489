import PatchSynth.Single.Literal

/-!
This module contains the tokens of a patch line, which are the runs of characters between
delimiters, and the numbers that tokens begin with. How far a number goes is found out on the bytes
of the token.
-/

namespace PatchSynth

def isDelimiter (c : Char) : Bool :=
  c == ',' || c == '(' || c == ')' || c == ' ' || c == '\t' || c == '\r' || c == '\n'

def tokensFrom (current : List Char) : List Char → List (List Char)
  | [] => flush current []
  | c :: rest =>
    if isDelimiter c then flush current (tokensFrom [] rest) else tokensFrom (c :: current) rest
where
  flush (current : List Char) (rest : List (List Char)) : List (List Char) :=
    if current.isEmpty then rest else current.reverse :: rest

def tokens (text : List Char) : List (List Char) :=
  tokensFrom [] text

theorem mem_flush {current token : List Char} {rest : List (List Char)}
    (h : token ∈ tokensFrom.flush current rest) :
    (token = current.reverse ∧ current ≠ []) ∨ token ∈ rest := by
  unfold tokensFrom.flush at h
  split at h
  next => exact Or.inr h
  next hne =>
    rcases List.mem_cons.1 h with h | h
    · exact Or.inl ⟨h, by simpa using hne⟩
    · exact Or.inr h

theorem of_mem_tokensFrom {current text token : List Char}
    (hcurrent : ∀ c ∈ current, isDelimiter c = false) (h : token ∈ tokensFrom current text) :
    token ≠ [] ∧ ∀ c ∈ token, isDelimiter c = false := by
  have hflush : current ≠ [] →
      current.reverse ≠ [] ∧ ∀ c ∈ current.reverse, isDelimiter c = false :=
    fun hne => ⟨by simpa using hne, fun c hc => hcurrent c (by simpa using hc)⟩
  induction text generalizing current with
  | nil =>
    rcases mem_flush h with ⟨rfl, hne⟩ | h
    · exact hflush hne
    · simp at h
  | cons c rest ih =>
    simp only [tokensFrom] at h
    split at h
    next =>
      rcases mem_flush h with ⟨rfl, hne⟩ | h
      · exact hflush hne
      · exact ih (by simp) h (by simp)
    next hc =>
      have hnext : ∀ d ∈ c :: current, isDelimiter d = false := by
        intro d hd
        rcases List.mem_cons.1 hd with rfl | hd
        · simpa using hc
        · exact hcurrent d hd
      exact ih hnext h fun _ => ⟨by simp, fun d hd => hnext d (List.mem_reverse.1 hd)⟩

theorem of_mem_tokens {text token : List Char} (h : token ∈ tokens text) :
    token ≠ [] ∧ ∀ c ∈ token, isDelimiter c = false :=
  of_mem_tokensFrom (by simp) h

def startsWithDigit (token : List Char) : Bool :=
  token.head?.any Char.isDigit

def utf8Bytes (text : List Char) : List UInt8 :=
  text.flatMap String.utf8EncodeChar

/--
The part of a text before an offset in bytes, unless the offset is inside of a character or beyond
the end.
-/
def takeBytes : List Char → Nat → Option (List Char)
  | _, 0 => some []
  | [], _ + 1 => none
  | c :: rest, count + 1 =>
    if c.utf8Size ≤ count + 1 then
      (takeBytes rest (count + 1 - c.utf8Size)).map (c :: ·)
    else
      none

def isDigitByte (byte : UInt8) : Bool :=
  '0'.toUInt8 ≤ byte && byte ≤ '9'.toUInt8

def digitsEnd (bytes : List UInt8) (offset : Nat) : Nat :=
  offset + ((bytes.drop offset).takeWhile isDigitByte).length

def fractionEnd (bytes : List UInt8) (offset : Nat) : Nat :=
  if bytes[offset]? = some '.'.toUInt8 then digitsEnd bytes (offset + 1) else offset

def signEnd (bytes : List UInt8) (offset : Nat) : Nat :=
  if bytes[offset]? = some '+'.toUInt8 ∨ bytes[offset]? = some '-'.toUInt8 then
    offset + 1
  else
    offset

def exponentEnd (bytes : List UInt8) (offset : Nat) : Nat :=
  if bytes[offset]? = some 'e'.toUInt8 ∨ bytes[offset]? = some 'E'.toUInt8 then
    let digits := signEnd bytes (offset + 1)
    if digits < digitsEnd bytes digits then digitsEnd bytes digits else offset
  else
    offset

def numeralLength (bytes : List UInt8) : Nat :=
  exponentEnd bytes (fractionEnd bytes (digitsEnd bytes 0))

def numberOfToken (token : List Char) : Option Float32 :=
  if startsWithDigit token then do
    let numeral ← takeBytes token (numeralLength (utf8Bytes token))
    (Single.read (String.ofList numeral)).toOption
  else
    none

end PatchSynth
