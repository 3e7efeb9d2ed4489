import PatchSynth.Proofs.Patch.Number
import PatchSynth.Text.Integer

/-!
This module contains what is read from the decimal digits of a natural number: the number itself
where an integer is due, and the single-precision number nearest to it in a patch.
-/

namespace PatchSynth

variable {digits : List Char} {n value bound : Nat}

theorem le_ofDigitChars (digits : List Char) (value : Nat) :
    value ≤ Nat.ofDigitChars 10 digits value := by
  rw [Nat.ofDigitChars_eq_ofDigitChars_zero]
  have := Nat.le_mul_of_pos_left value (Nat.pow_pos (n := digits.length) (show 0 < 10 by decide))
  omega

theorem readDigits_of_le (hdigits : ∀ c ∈ digits, c.isDigit = true)
    (h : Nat.ofDigitChars 10 digits value ≤ bound) :
    readDigits bound value digits = .ok (Nat.ofDigitChars 10 digits value) := by
  induction digits generalizing value with
  | nil => rfl
  | cons c rest ih =>
    rw [List.forall_mem_cons] at hdigits
    obtain ⟨hc, hrest⟩ := hdigits
    rw [Nat.ofDigitChars_cons] at h ⊢
    have hnext := le_ofDigitChars rest (10 * value + (c.toNat - '0'.toNat))
    rw [readDigits, hc, if_neg (by simp), if_neg (by omega), ih hrest h]

theorem isDigit_of_mem_toDigits {c : Char} (h : c ∈ Nat.toDigits 10 n) : c.isDigit = true :=
  Nat.isDigit_of_mem_toDigits (by decide) (by decide) h

theorem isDelimiter_of_isDigit {c : Char} (h : c.isDigit = true) : isDelimiter c = false := by
  rw [← Bool.not_eq_true]
  intro hdelimiter
  simp only [isDelimiter, Bool.or_eq_true, beq_iff_eq] at hdelimiter
  rcases hdelimiter with ((((((rfl | rfl) | rfl) | rfl) | rfl) | rfl) | rfl) <;> cases h

theorem readDigits_toDigits (h : n ≤ bound) :
    readDigits bound 0 (Nat.toDigits 10 n) = .ok n := by
  have hvalue : Nat.ofDigitChars 10 (Nat.toDigits 10 n) 0 = n :=
    Nat.ofDigitChars_toDigits (by decide) (by decide)
  rw [readDigits_of_le (fun c => isDigit_of_mem_toDigits) (by rw [hvalue]; exact h), hvalue]

theorem exists_toDigits_eq (n : Nat) :
    ∃ c rest, Nat.toDigits 10 n = c :: rest ∧ c.isDigit = true := by
  obtain ⟨c, rest, heq⟩ := List.exists_cons_of_ne_nil (Nat.toDigits_ne_nil (n := n) (b := 10))
  refine ⟨c, rest, heq, isDigit_of_mem_toDigits (n := n) ?_⟩
  rw [heq]
  exact List.mem_cons_self

theorem ofDigitChars_of_readDigits (h : readDigits bound value digits = .ok n) :
    Nat.ofDigitChars 10 digits value = n := by
  induction digits generalizing value with
  | nil =>
    cases h
    rfl
  | cons c rest ih =>
    rw [readDigits] at h
    split at h
    next => cases h
    next =>
      split at h
      next => cases h
      next => rw [Nat.ofDigitChars_cons, ih h]

theorem readNat_of_digits {c : Char} {rest : List Char} (hc : c.isDigit = true) :
    readNat bound (c :: rest) = readDigits bound 0 (c :: rest) := by
  have hplus : c ≠ '+' := by
    rintro rfl
    cases hc
  unfold readNat
  split
  next hnil => cases hnil
  next hsign => exact absurd (List.cons.inj hsign).1 hplus
  next hsign => exact absurd (List.cons.inj hsign).1 hplus
  next => rfl

theorem readNat_toDigits (h : n ≤ bound) : readNat bound (Nat.toDigits 10 n) = .ok n := by
  have hdigits := readDigits_toDigits h
  obtain ⟨c, rest, heq, hc⟩ := exists_toDigits_eq n
  rw [heq] at hdigits ⊢
  rw [readNat_of_digits hc, hdigits]

theorem readInt_toDigits (h : n ≤ bound) : readInt bound (Nat.toDigits 10 n) = .ok n := by
  have hnat := readNat_toDigits h
  obtain ⟨c, rest, heq, hc⟩ := exists_toDigits_eq n
  have hminus : c ≠ '-' := by
    rintro rfl
    cases hc
  rw [heq] at hnat ⊢
  unfold readInt
  split
  next hsign => exact absurd (List.cons.inj hsign).1 hminus
  next hsign => exact absurd (List.cons.inj hsign).1 hminus
  next =>
    rw [hnat]
    rfl

theorem readInt_neg_toDigits (h : n ≤ bound + 1) :
    readInt bound ('-' :: Nat.toDigits 10 n) = .ok (-n) := by
  have hdigits := readDigits_toDigits h
  obtain ⟨c, rest, heq, -⟩ := exists_toDigits_eq n
  rw [heq] at hdigits ⊢
  rw [readInt, hdigits]
  · rfl
  · simp

theorem toList_toString (n : Nat) : (toString n).toList = Nat.toDigits 10 n := by
  rw [Nat.toString_eq_ofList_toDigits, String.toList_ofList]

theorem toList_toString_int (i : Int) :
    (toString i).toList = (if i < 0 then ['-'] else []) ++ Nat.toDigits 10 i.natAbs := by
  cases i with
  | ofNat n => exact toList_toString n
  | negSucc n =>
    rw [Int.natAbs_negSucc, ← toList_toString, if_pos (Int.negSucc_lt_zero n)]
    exact String.toList_append

theorem not_mem_toString {c : Char} (hc : c.isDigit = false) (hminus : c ≠ '-') (i : Int) :
    c ∉ (toString i).toList := by
  rw [toList_toString_int, List.mem_append, not_or]
  constructor
  · split <;> simp [hminus]
  · intro hmem
    rw [isDigit_of_mem_toDigits hmem] at hc
    cases hc

theorem readInt_toString {i : Int} (hlow : -(bound : Int) - 1 ≤ i) (hhigh : i ≤ bound) :
    readInt bound (toString i).toList = .ok i := by
  rw [toList_toString_int]
  split
  next hneg =>
    rw [List.singleton_append, readInt_neg_toDigits (by omega)]
    congr 1
    omega
  next hneg =>
    rw [List.nil_append, readInt_toDigits (by omega)]
    congr 1
    omega

namespace Single

theorem digitsValue_toDigits (n : Nat) : digitsValue (Nat.toDigits 10 n) = n :=
  Nat.ofDigitChars_toDigits (by decide) (by decide)

theorem ofDecimal_zero (n : Nat) : ofDecimal n 0 = ofNat n := by
  unfold ofDecimal
  split
  next hzero =>
    rw [hzero]
    rfl
  next =>
    rw [if_neg (by decide), if_neg (by omega)]
    show ofRatio (n * 1) 1 = ofNat n
    rw [Nat.mul_one, ofNat]

end Single

theorem numberOfToken_toDigits (n : Nat) :
    numberOfToken (Nat.toDigits 10 n) = some (Single.ofNat n) := by
  let numeral : Single.Numeral :=
    { whole := Nat.toDigits 10 n, fraction := none, exponent := none }
  have hwell : numeral.WellFormed :=
    { whole := fun c => isDigit_of_mem_toDigits
      whole_ne_nil := Nat.toDigits_ne_nil
      fraction := fun _ hnone => nomatch hnone
      exponent := fun _ hnone => nomatch hnone }
  have htext : numeral.text = Nat.toDigits 10 n := by
    simp [numeral, Single.Numeral.text]
  have hstarts : startsWithDigit (Nat.toDigits 10 n) = true := by
    obtain ⟨c, rest, heq, hc⟩ := exists_toDigits_eq n
    rw [heq, startsWithDigit, List.head?_cons, Option.any_some, hc]
  have hvalue : numeral.value = Single.ofNat n := by
    rw [Single.Numeral.value, Option.getD_none, List.append_nil, Single.digitsValue_toDigits]
    exact Single.ofDecimal_zero n
  rw [numberOfToken_of_digit hstarts, ← htext, Single.Numeral.scan_text hwell, hvalue]

end PatchSynth
