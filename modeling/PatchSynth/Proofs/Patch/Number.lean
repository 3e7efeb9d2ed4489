import PatchSynth.Patch.Token
import PatchSynth.Proofs.Single.Decimal

/-!
This module contains the numbers of tokens. A number is cut off a token at an offset in bytes, which
is found by looking at single bytes. The offset is never inside of a character, because the bytes of
the characters that have several of them are none that a numeral has.
-/

namespace PatchSynth

open Single

variable {token before after : List Char} {c d : Char}

theorem utf8Bytes_append (before after : List Char) :
    utf8Bytes (before ++ after) = utf8Bytes before ++ utf8Bytes after :=
  List.flatMap_append

theorem utf8Bytes_cons (c : Char) (rest : List Char) :
    utf8Bytes (c :: rest) = String.utf8EncodeChar c ++ utf8Bytes rest :=
  List.flatMap_cons

theorem exists_utf8EncodeChar (c : Char) :
    (c.toNat < 128 ∧ String.utf8EncodeChar c = [UInt8.ofNat c.toNat]) ∨
      128 ≤ c.toNat ∧ ∃ byte rest, String.utf8EncodeChar c = byte :: rest ∧ 128 ≤ byte.toNat := by
  have hbyte : ∀ {n : Nat}, 128 ≤ n → n < 256 → 128 ≤ (UInt8.ofNat n).toNat := by
    intro n hlow hhigh
    rwa [UInt8.toNat_ofNat_of_lt' hhigh]
  have hval : c.val.toNat = c.toNat := rfl
  unfold String.utf8EncodeChar
  dsimp only
  rw [hval]
  split
  next h => exact Or.inl ⟨by omega, rfl⟩
  next h =>
    refine Or.inr ⟨by omega, ?_⟩
    split
    next => exact ⟨_, _, rfl, hbyte (by omega) (by omega)⟩
    next =>
      split
      next => exact ⟨_, _, rfl, hbyte (by omega) (by omega)⟩
      next => exact ⟨_, _, rfl, hbyte (by omega) (by omega)⟩

theorem isDigitByte_ofNat (h : c.toNat < 128) :
    isDigitByte (UInt8.ofNat c.toNat) = c.isDigit := by
  have hbyte : (UInt8.ofNat c.toNat).toNat = c.toNat :=
    UInt8.toNat_ofNat_of_lt' (by simp only [UInt8.size]; omega)
  have hval : c.val.toNat = c.toNat := rfl
  simp only [isDigitByte, Char.isDigit, ge_iff_le, UInt8.le_iff_toNat_le, UInt32.le_iff_toNat_le,
    hbyte, hval]
  rfl

theorem isDigitByte_eq_false {byte : UInt8} (h : 128 ≤ byte.toNat) : isDigitByte byte = false := by
  rw [isDigitByte, Bool.and_eq_false_iff]
  refine Or.inr ?_
  rw [decide_eq_false_iff_not, UInt8.le_iff_toNat_le]
  have : '9'.toUInt8.toNat = 57 := rfl
  omega

theorem isDigit_eq_false (h : 128 ≤ c.toNat) : c.isDigit = false := by
  have hval : c.val.toNat = c.toNat := rfl
  rw [Char.isDigit, Bool.and_eq_false_iff]
  refine Or.inr ?_
  rw [decide_eq_false_iff_not, UInt32.le_iff_toNat_le, hval]
  have : '9'.val.toNat = 57 := rfl
  omega

theorem takeWhile_utf8Bytes (text : List Char) :
    (utf8Bytes text).takeWhile isDigitByte = utf8Bytes (text.takeWhile Char.isDigit) := by
  induction text with
  | nil => rfl
  | cons c rest ih =>
    rw [utf8Bytes_cons]
    obtain ⟨hsmall, hbytes⟩ | ⟨hlarge, byte, more, hbytes, hbyte⟩ := exists_utf8EncodeChar c
    · rw [hbytes, List.singleton_append]
      cases hdigit : c.isDigit with
      | true =>
        rw [List.takeWhile_cons_of_pos (by rw [isDigitByte_ofNat hsmall, hdigit]),
          List.takeWhile_cons_of_pos hdigit, ih, utf8Bytes_cons, hbytes, List.singleton_append]
      | false =>
        rw [List.takeWhile_cons_of_neg (by simp [isDigitByte_ofNat hsmall, hdigit]),
          List.takeWhile_cons_of_neg (by simp [hdigit])]
        rfl
    · rw [hbytes, List.cons_append,
        List.takeWhile_cons_of_neg (by simp [isDigitByte_eq_false hbyte]),
        List.takeWhile_cons_of_neg (by simp [isDigit_eq_false hlarge])]
      rfl

theorem head_utf8Bytes_iff (hd : d.toNat < 128) (text : List Char) :
    (utf8Bytes text).head? = some d.toUInt8 ↔ text.head? = some d := by
  have hbyte : ∀ {c : Char}, c.toNat < 128 → (UInt8.ofNat c.toNat).toNat = c.toNat := fun hc =>
    UInt8.toNat_ofNat_of_lt' (by simp only [UInt8.size]; omega)
  have hd' : d.toUInt8.toNat = d.toNat := hbyte hd
  cases text with
  | nil => simp [utf8Bytes]
  | cons c rest =>
    rw [utf8Bytes_cons, List.head?_cons, Option.some_inj]
    obtain ⟨hsmall, hbytes⟩ | ⟨hlarge, byte, more, hbytes, hlow⟩ := exists_utf8EncodeChar c
    · rw [hbytes, List.singleton_append, List.head?_cons, Option.some_inj, ← UInt8.toNat_inj,
        hbyte hsmall, hd', Char.toNat_inj]
    · rw [hbytes, List.cons_append, List.head?_cons, Option.some_inj, ← UInt8.toNat_inj, hd',
        ← Char.toNat_inj]
      omega

theorem length_utf8Bytes_singleton (h : c.toNat < 128) : (utf8Bytes [c]).length = 1 := by
  obtain ⟨-, hbytes⟩ | ⟨hlarge, -⟩ := exists_utf8EncodeChar c
  · rw [utf8Bytes_cons, hbytes]
    rfl
  · omega

theorem length_utf8Bytes_concat (before : List Char) (h : c.toNat < 128) :
    (utf8Bytes before).length + 1 = (utf8Bytes (before ++ [c])).length := by
  rw [utf8Bytes_append, List.length_append, length_utf8Bytes_singleton h]

theorem getElem?_utf8Bytes (before after : List Char) (hd : d.toNat < 128) :
    (utf8Bytes (before ++ after))[(utf8Bytes before).length]? = some d.toUInt8
      ↔ after.head? = some d := by
  rw [utf8Bytes_append, List.getElem?_append_right (Nat.le_refl _), Nat.sub_self,
    ← List.head?_eq_getElem?, head_utf8Bytes_iff hd]

theorem digitsEnd_utf8Bytes (before after : List Char) :
    digitsEnd (utf8Bytes (before ++ after)) (utf8Bytes before).length
      = (utf8Bytes (before ++ after.takeWhile Char.isDigit)).length := by
  rw [digitsEnd, utf8Bytes_append, List.drop_left, takeWhile_utf8Bytes, utf8Bytes_append,
    List.length_append]

theorem digitsEnd_next (before : List Char) (hc : c.toNat < 128) (after : List Char) :
    digitsEnd (utf8Bytes (before ++ c :: after)) ((utf8Bytes before).length + 1)
      = (utf8Bytes (before ++ c :: after.takeWhile Char.isDigit)).length := by
  have hdigits := digitsEnd_utf8Bytes (before ++ [c]) after
  rwa [← length_utf8Bytes_concat before hc, List.append_assoc, List.append_assoc,
    List.singleton_append, List.singleton_append] at hdigits

theorem fractionEnd_utf8Bytes (before after : List Char) :
    fractionEnd (utf8Bytes (before ++ after)) (utf8Bytes before).length
      = (utf8Bytes (before ++ ((Numeral.scanFraction after).1.map ('.' :: ·)).getD [])).length := by
  unfold fractionEnd
  simp only [getElem?_utf8Bytes before after (d := '.') (by decide)]
  split
  next hpoint =>
    obtain ⟨rest, rfl⟩ := List.head?_eq_some_iff.1 hpoint
    exact digitsEnd_next before (by decide) rest
  next hpoint =>
    rw [Numeral.scanFraction_of_ne_point hpoint, Option.map_none, Option.getD_none,
      List.append_nil]

theorem signEnd_utf8Bytes (before after : List Char) :
    signEnd (utf8Bytes (before ++ after)) (utf8Bytes before).length
      = (utf8Bytes (before ++ (Numeral.Exponent.splitSign after).1.toList)).length := by
  unfold signEnd
  simp only [getElem?_utf8Bytes before after (d := '+') (by decide),
    getElem?_utf8Bytes before after (d := '-') (by decide)]
  obtain ⟨rest, rfl⟩ | ⟨rest, rfl⟩ | ⟨hplus, hminus, hsplit⟩ :=
    Numeral.Exponent.splitSign_cases after
  · exact length_utf8Bytes_concat before (c := '+') (by decide)
  · exact length_utf8Bytes_concat before (c := '-') (by decide)
  · rw [if_neg (by simp [hplus, hminus]), hsplit, Option.toList_none, List.append_nil]

theorem length_utf8Bytes_pos_iff {text : List Char} : 0 < (utf8Bytes text).length ↔ text ≠ [] := by
  cases text with
  | nil => simp [utf8Bytes]
  | cons c rest =>
    have hpos := c.utf8Size_pos
    rw [utf8Bytes_cons, List.length_append, String.length_utf8EncodeChar]
    simp
    omega

theorem exponentEnd_utf8Bytes (before after : List Char) :
    exponentEnd (utf8Bytes (before ++ after)) (utf8Bytes before).length
      = (utf8Bytes (before ++ ((Numeral.Exponent.scan after).1.map Numeral.Exponent.text).getD
          [])).length := by
  unfold exponentEnd
  simp only [getElem?_utf8Bytes before after (d := 'e') (by decide),
    getElem?_utf8Bytes before after (d := 'E') (by decide)]
  cases after with
  | nil => simp [Numeral.Exponent.scan]
  | cons letter rest =>
    simp only [List.head?_cons, Option.some_inj, Numeral.Exponent.scan]
    by_cases hletter : letter = 'e' ∨ letter = 'E'
    · have hsmall : letter.toNat < 128 := by
        obtain rfl | rfl := hletter <;> decide
      have hsplit := Numeral.Exponent.toList_splitSign rest
      have hsign := signEnd_utf8Bytes (before ++ [letter]) rest
      generalize Numeral.Exponent.splitSign rest = split at hsplit hsign ⊢
      obtain ⟨sign, unsigned⟩ := split
      dsimp only at hsplit hsign ⊢
      have hdigits := digitsEnd_utf8Bytes (before ++ [letter] ++ sign.toList) unsigned
      have htext : before ++ letter :: rest = before ++ [letter] ++ rest := by simp
      have htext' : before ++ letter :: rest = before ++ [letter] ++ sign.toList ++ unsigned := by
        simp [← hsplit]
      rw [← htext] at hsign
      rw [← htext'] at hdigits
      have hfound : (letter == 'e' || letter == 'E') = true := by simpa using hletter
      rw [if_pos hletter, length_utf8Bytes_concat before hsmall, hsign, hdigits, hfound]
      generalize unsigned.takeWhile Char.isDigit = digits
      rw [utf8Bytes_append (before ++ [letter] ++ sign.toList) digits, List.length_append]
      simp only [Nat.lt_add_right_iff_pos, length_utf8Bytes_pos_iff]
      by_cases hnone : digits = []
      · simp [hnone]
      · rw [if_pos hnone, ← List.length_append, ← utf8Bytes_append]
        simp [hnone, Numeral.Exponent.text]
    · rw [if_neg hletter]
      rw [not_or] at hletter
      simp [hletter]

theorem numeralLength_utf8Bytes (token : List Char) :
    numeralLength (utf8Bytes token) = (utf8Bytes (Numeral.scan token).1.text).length := by
  have hwhole := digitsEnd_utf8Bytes [] token
  rw [List.nil_append, List.nil_append] at hwhole
  have hsplit : token.takeWhile Char.isDigit ++ token.dropWhile Char.isDigit = token :=
    List.takeWhile_append_dropWhile
  have hfraction := fractionEnd_utf8Bytes (token.takeWhile Char.isDigit)
    (token.dropWhile Char.isDigit)
  have hrest := Numeral.text_scanFraction (token.dropWhile Char.isDigit)
  have hexponent := exponentEnd_utf8Bytes (token.takeWhile Char.isDigit
    ++ ((Numeral.scanFraction (token.dropWhile Char.isDigit)).1.map ('.' :: ·)).getD [])
    (Numeral.scanFraction (token.dropWhile Char.isDigit)).2
  rw [hsplit] at hfraction
  rw [List.append_assoc, hrest, hsplit] at hexponent
  have hstart : digitsEnd (utf8Bytes token) 0 = (utf8Bytes (token.takeWhile Char.isDigit)).length :=
    hwhole
  rw [numeralLength, hstart, hfraction, hexponent]
  rfl

theorem takeBytes_utf8Bytes (before after : List Char) :
    takeBytes (before ++ after) (utf8Bytes before).length = some before := by
  induction before with
  | nil =>
    cases after <;> rfl
  | cons c rest ih =>
    have hpos := c.utf8Size_pos
    obtain ⟨count, hcount⟩ : ∃ count, c.utf8Size + (utf8Bytes rest).length = count + 1 :=
      ⟨_, (Nat.succ_pred_eq_of_pos (by omega)).symm⟩
    rw [utf8Bytes_cons, List.length_append, String.length_utf8EncodeChar, hcount, List.cons_append,
      takeBytes, if_pos (by omega), show count + 1 - c.utf8Size = (utf8Bytes rest).length by omega,
      ih, Option.map_some]

theorem takeBytes_numeral (token : List Char) :
    takeBytes token (numeralLength (utf8Bytes token)) = some (Numeral.scan token).1.text := by
  have htake := takeBytes_utf8Bytes (Numeral.scan token).1.text (Numeral.scan token).2
  rwa [Numeral.text_scan, ← numeralLength_utf8Bytes] at htake

theorem numberOfToken_of_digit (h : startsWithDigit token = true) :
    numberOfToken token = some (Numeral.scan token).1.value := by
  rw [numberOfToken, if_pos h, takeBytes_numeral]
  show (Single.read _).toOption = _
  rw [Single.read_text (Numeral.wellFormed_scan h)]
  rfl

theorem numberOfToken_eq_none (h : startsWithDigit token = false) : numberOfToken token = none := by
  rw [numberOfToken, h, if_neg (by decide)]

theorem isNaN_of_numberOfToken {number : Float32} (h : numberOfToken token = some number) :
    isNaN number = false := by
  cases hdigit : startsWithDigit token with
  | false =>
    rw [numberOfToken_eq_none hdigit] at h
    cases h
  | true =>
    rw [numberOfToken_of_digit hdigit] at h
    cases h
    exact (Numeral.rounds_value _).isNaN_eq

end PatchSynth
