import Mathlib
import PatchSynth.Single.Literal

/-!
This module contains the grammar of unsigned decimal numerals, `digits[.digits][e[+-]digits]`. What
is taken off the front of a text that starts with a digit is a numeral, and no longer one stands
there. A numeral with nothing around it is read as the number that it stands for.
-/

namespace PatchSynth
namespace Single
namespace Numeral

structure Exponent.WellFormed (exponent : Exponent) : Prop where
  letter : exponent.letter = 'e' ∨ exponent.letter = 'E'
  sign : exponent.sign = none ∨ exponent.sign = some '+' ∨ exponent.sign = some '-'
  digits : ∀ c ∈ exponent.digits, c.isDigit = true
  digits_ne_nil : exponent.digits ≠ []

structure WellFormed (numeral : Numeral) : Prop where
  whole : ∀ c ∈ numeral.whole, c.isDigit = true
  whole_ne_nil : numeral.whole ≠ []
  fraction : ∀ digits, numeral.fraction = some digits → ∀ c ∈ digits, c.isDigit = true
  exponent : ∀ exponent, numeral.exponent = some exponent → exponent.WellFormed

variable {digits rest text : List Char} {numeral : Numeral} {exponent : Exponent} {c : Char}

theorem isDigit_of_mem_takeWhile {text : List Char} : ∀ c ∈ text.takeWhile Char.isDigit,
    c.isDigit = true :=
  fun _ hmem => List.mem_takeWhile_imp hmem

theorem takeWhile_of_head (h : c.isDigit = false) (digits rest : List Char)
    (hdigits : ∀ d ∈ digits, d.isDigit = true) :
    (digits ++ c :: rest).takeWhile Char.isDigit = digits ∧
      (digits ++ c :: rest).dropWhile Char.isDigit = c :: rest := by
  rw [List.takeWhile_append_of_pos hdigits, List.dropWhile_append_of_pos hdigits]
  simp [h]

namespace Exponent

theorem splitSign_cases (text : List Char) :
    (∃ rest, text = '+' :: rest) ∨ (∃ rest, text = '-' :: rest) ∨
      text.head? ≠ some '+' ∧ text.head? ≠ some '-' ∧ splitSign text = (none, text) := by
  unfold splitSign
  split
  next rest => exact Or.inl ⟨rest, rfl⟩
  next rest => exact Or.inr (Or.inl ⟨rest, rfl⟩)
  next hplus hminus =>
    refine Or.inr (Or.inr ⟨?_, ?_, rfl⟩)
    · intro hhead
      obtain ⟨rest, rfl⟩ := List.head?_eq_some_iff.1 hhead
      exact hplus rest rfl
    · intro hhead
      obtain ⟨rest, rfl⟩ := List.head?_eq_some_iff.1 hhead
      exact hminus rest rfl

theorem splitSign_of_wellFormed (h : exponent.WellFormed) (rest : List Char) :
    splitSign (exponent.sign.toList ++ (exponent.digits ++ rest))
      = (exponent.sign, exponent.digits ++ rest) := by
  obtain ⟨c, digits, hdigits⟩ := List.exists_cons_of_ne_nil h.digits_ne_nil
  have hc : c.isDigit = true := h.digits c (by simp [hdigits])
  obtain hsign | hsign | hsign := h.sign
  · rw [hsign, hdigits, Option.toList_none, List.nil_append, List.cons_append]
    obtain ⟨_, heq⟩ | ⟨_, heq⟩ | ⟨-, -, hsplit⟩ := splitSign_cases (c :: (digits ++ rest))
    · cases heq
      cases hc
    · cases heq
      cases hc
    · exact hsplit
  · rw [hsign]
    rfl
  · rw [hsign]
    rfl

theorem scan_text (h : exponent.WellFormed) (rest : List Char) :
    scan (exponent.text ++ rest)
      = (some { exponent with digits := exponent.digits ++ rest.takeWhile Char.isDigit },
          rest.dropWhile Char.isDigit) := by
  have hletter : (exponent.letter == 'e' || exponent.letter == 'E') = true := by
    simpa using h.letter
  have hnonempty : (exponent.digits ++ rest.takeWhile Char.isDigit).isEmpty = false := by
    simp [h.digits_ne_nil]
  rw [text, List.cons_append, List.append_assoc, scan, splitSign_of_wellFormed h rest]
  dsimp only
  rw [List.takeWhile_append_of_pos h.digits, List.dropWhile_append_of_pos h.digits, hletter,
    hnonempty]
  rfl

theorem wellFormed_scan (h : (scan text).1 = some exponent) : exponent.WellFormed := by
  cases text with
  | nil => cases h
  | cons letter rest =>
    rw [scan] at h
    dsimp only at h
    split at h
    next hfound =>
      cases h
      rw [Bool.and_eq_true, Bool.or_eq_true, beq_iff_eq, beq_iff_eq] at hfound
      obtain ⟨hletter, hnonempty⟩ := hfound
      refine ⟨hletter, ?_, isDigit_of_mem_takeWhile, by simpa using hnonempty⟩
      unfold splitSign
      split <;> simp
    next => cases h

end Exponent

theorem scanFraction_point (hdigits : ∀ c ∈ digits, c.isDigit = true) (rest : List Char) :
    scanFraction ('.' :: digits ++ rest)
      = (some (digits ++ rest.takeWhile Char.isDigit), rest.dropWhile Char.isDigit) := by
  rw [List.cons_append, scanFraction, List.takeWhile_append_of_pos hdigits,
    List.dropWhile_append_of_pos hdigits]

theorem scanFraction_of_ne_point (h : text.head? ≠ some '.') : scanFraction text = (none, text) := by
  unfold scanFraction
  split
  next => exact absurd rfl h
  next => rfl

theorem exists_scanFraction (text : List Char) :
    (∃ digits, (scanFraction text).1 = some digits ∧ ∀ c ∈ digits, c.isDigit = true) ∨
      (scanFraction text).1 = none := by
  unfold scanFraction
  split
  next => exact Or.inl ⟨_, rfl, isDigit_of_mem_takeWhile⟩
  next => exact Or.inr rfl

theorem wellFormed_scan (h : text.head?.any Char.isDigit = true) : (scan text).1.WellFormed := by
  refine ⟨isDigit_of_mem_takeWhile, ?_, ?_, fun exponent => Exponent.wellFormed_scan⟩
  · cases text with
    | nil => cases h
    | cons c rest =>
      have hc : c.isDigit = true := h
      simp [scan, hc]
  · intro digits hfraction
    obtain ⟨found, hfound, hdigits⟩ | hnone := exists_scanFraction (text.dropWhile Char.isDigit)
    · cases hfound.symm.trans hfraction
      exact hdigits
    · cases hnone.symm.trans hfraction

theorem head_exponent_ne (h : numeral.WellFormed) (hexponent : numeral.exponent = some exponent) :
    exponent.letter.isDigit = false ∧ exponent.letter ≠ '.' := by
  obtain hletter | hletter := (h.exponent exponent hexponent).letter <;> rw [hletter] <;>
    decide

theorem scan_of_exponent (h : numeral.WellFormed) (hexponent : numeral.exponent = some exponent)
    (rest : List Char) :
    scan (numeral.text ++ rest)
      = ({ numeral with
            exponent := some
              { exponent with digits := exponent.digits ++ rest.takeWhile Char.isDigit } },
          rest.dropWhile Char.isDigit) := by
  obtain ⟨hdigit, hpoint⟩ := head_exponent_ne h hexponent
  have hscan := Exponent.scan_text (h.exponent exponent hexponent) rest
  obtain ⟨tail, htail⟩ : ∃ tail, exponent.text ++ rest = exponent.letter :: tail := ⟨_, rfl⟩
  obtain ⟨whole, fraction, _⟩ := numeral
  cases hexponent
  cases fraction with
  | none =>
    obtain ⟨htake, hdrop⟩ := takeWhile_of_head hdigit whole tail h.whole
    have hfraction : scanFraction (exponent.letter :: tail) = (none, exponent.letter :: tail) :=
      scanFraction_of_ne_point (by simpa using hpoint)
    have htext : text { whole, fraction := none, exponent := some exponent } ++ rest
        = whole ++ (exponent.letter :: tail) := by
      simp [text, ← htail]
    rw [htail] at hscan
    rw [htext, scan, htake, hdrop, hfraction]
    dsimp only
    rw [hscan]
  | some digits =>
    have hdigits := h.fraction digits rfl
    have htext : text { whole, fraction := some digits, exponent := some exponent } ++ rest
        = whole ++ ('.' :: (digits ++ (exponent.letter :: tail))) := by
      simp [text, ← htail]
    obtain ⟨htake, hdrop⟩ := takeWhile_of_head (c := '.') rfl whole
      (digits ++ (exponent.letter :: tail)) h.whole
    have hfraction := scanFraction_point hdigits (exponent.letter :: tail)
    rw [List.takeWhile_cons_of_neg (by simp [hdigit]), List.dropWhile_cons_of_neg (by simp [hdigit]),
      List.append_nil, List.cons_append] at hfraction
    rw [htail] at hscan
    rw [htext, scan, htake, hdrop, hfraction]
    dsimp only
    rw [hscan]

theorem scan_of_fraction (h : numeral.WellFormed) (hfraction : numeral.fraction = some digits)
    (hexponent : numeral.exponent = none) (rest : List Char) :
    scan (numeral.text ++ rest)
      = ({ whole := numeral.whole
           fraction := some (digits ++ rest.takeWhile Char.isDigit)
           exponent := (Exponent.scan (rest.dropWhile Char.isDigit)).1 },
          (Exponent.scan (rest.dropWhile Char.isDigit)).2) := by
  obtain ⟨whole, _, _⟩ := numeral
  cases hfraction
  cases hexponent
  have htext : text { whole, fraction := some digits, exponent := none } ++ rest
      = whole ++ ('.' :: (digits ++ rest)) := by
    simp [text]
  obtain ⟨htake, hdrop⟩ := takeWhile_of_head (c := '.') rfl whole (digits ++ rest) h.whole
  have hpoint := scanFraction_point (h.fraction digits rfl) rest
  rw [List.cons_append] at hpoint
  rw [htext, scan, htake, hdrop, hpoint]

theorem scan_of_whole (h : numeral.WellFormed) (hfraction : numeral.fraction = none)
    (hexponent : numeral.exponent = none) (rest : List Char) :
    (scan (numeral.text ++ rest)).1.whole = numeral.whole ++ rest.takeWhile Char.isDigit := by
  obtain ⟨whole, _, _⟩ := numeral
  cases hfraction
  cases hexponent
  have htext : text { whole, fraction := none, exponent := none } = whole := by
    simp [text]
  rw [htext]
  exact List.takeWhile_append_of_pos h.whole

theorem text_prefix_scan (h : numeral.WellFormed) (rest : List Char) :
    numeral.text <+: (scan (numeral.text ++ rest)).1.text := by
  cases hexponent : numeral.exponent with
  | some exponent =>
    rw [scan_of_exponent h hexponent]
    refine ⟨rest.takeWhile Char.isDigit, ?_⟩
    simp [text, Exponent.text, hexponent]
  | none =>
    cases hfraction : numeral.fraction with
    | some digits =>
      rw [scan_of_fraction h hfraction hexponent]
      simp [text, hfraction, hexponent]
    | none =>
      have hwhole := scan_of_whole h hfraction hexponent rest
      have htext : numeral.text = numeral.whole := by
        simp [text, hfraction, hexponent]
      rw [htext] at hwhole ⊢
      rw [text, hwhole, List.append_assoc, List.append_assoc]
      exact List.prefix_append _ _

theorem scan_text (h : numeral.WellFormed) : scan numeral.text = (numeral, []) := by
  rw [← List.append_nil numeral.text]
  cases hexponent : numeral.exponent with
  | some exponent =>
    rw [scan_of_exponent h hexponent]
    simp [← hexponent]
  | none =>
    cases hfraction : numeral.fraction with
    | some digits =>
      rw [scan_of_fraction h hfraction hexponent]
      simp [Exponent.scan, ← hexponent, ← hfraction]
    | none =>
      obtain ⟨whole, _, _⟩ := numeral
      cases hfraction
      cases hexponent
      have hdrop : whole.dropWhile Char.isDigit = [] := List.dropWhile_eq_nil_iff.2 h.whole
      have htake : whole.takeWhile Char.isDigit = whole := List.takeWhile_eq_self_iff.2 h.whole
      simp [scan, text, hdrop, htake, scanFraction, Exponent.scan]

theorem exists_text_eq (h : numeral.WellFormed) :
    ∃ c rest, numeral.text = c :: rest ∧ c.isDigit = true := by
  obtain ⟨c, rest, hwhole⟩ := List.exists_cons_of_ne_nil h.whole_ne_nil
  have hc : c.isDigit = true := h.whole c (by simp [hwhole])
  rw [text, hwhole, List.append_assoc, List.cons_append]
  exact ⟨c, _, rfl, hc⟩

end Numeral

theorem toLower_of_isDigit {c : Char} (h : c.isDigit = true) : c.toLower = c := by
  apply Char.toLower_eq_of_not_isUpper
  simp only [Char.isUpper, Char.isDigit, Bool.and_eq_true, decide_eq_true_eq] at h ⊢
  rintro ⟨hlow, -⟩
  have := UInt32.le_trans hlow h.2
  exact absurd this (by decide)

theorem readUnsigned_of_digit {c : Char} {rest : List Char} (h : c.isDigit = true) :
    readUnsigned (c :: rest)
      = if (Numeral.scan (c :: rest)).1.hasDigit && (Numeral.scan (c :: rest)).2.isEmpty then
          some (Numeral.scan (c :: rest)).1.value
        else
          none := by
  have hword : ∀ {d : Char} {word : List Char}, d.isDigit = false →
      (c :: rest).map Char.toLower ≠ d :: word := by
    intro d word hd heq
    rw [List.map_cons, toLower_of_isDigit h] at heq
    rw [(List.cons.inj heq).1, hd] at h
    cases h
  have hinf : (c :: rest).map Char.toLower ≠ "inf".toList := hword (d := 'i') rfl
  have hinfinity : (c :: rest).map Char.toLower ≠ "infinity".toList := hword (d := 'i') rfl
  have hnan : (c :: rest).map Char.toLower ≠ "nan".toList := hword (d := 'n') rfl
  rw [readUnsigned]
  dsimp only
  rw [if_neg (by simp only [hinf, hinfinity]; simp), if_neg hnan]

theorem read_text {numeral : Numeral} (h : numeral.WellFormed) :
    read (String.ofList numeral.text) = .ok numeral.value := by
  have hscan := Numeral.scan_text h
  have hdigit : numeral.hasDigit = true := by
    simp [Numeral.hasDigit, h.whole_ne_nil]
  obtain ⟨c, rest, htext, hc⟩ := Numeral.exists_text_eq h
  have hunsigned : readUnsigned (c :: rest) = some numeral.value := by
    rw [readUnsigned_of_digit hc, ← htext, hscan, hdigit]
    rfl
  rw [read, String.toList_ofList, htext]
  split
  next heq => cases heq
  next heq =>
    cases heq
    cases hc
  next heq =>
    cases heq
    cases hc
  next => rw [hunsigned, Option.elim_some]

end Single
end PatchSynth
