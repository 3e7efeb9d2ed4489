import Mathlib
import PatchSynth.Range

/-!
This module contains the order of single-precision numbers. Below the sign, a bit pattern counts the
numbers from zero to infinity, and so two numbers that are not NaN compare like their ranks, the
patterns with their signs (`le_iff`, `lt_iff`).
-/

namespace PatchSynth
namespace Single

open Float.Model Float.Model.UnpackedFloat

variable {x y z : Float32}

def magnitude (x : Float32) : Nat :=
  x.toBits.toNat % 0x80000000

def sign (x : Float32) : Sign :=
  if isNegative x then .negative else .positive

/--
The place of a number among all that are not NaN. The two zeros share theirs.
-/
def rank (x : Float32) : Int :=
  (sign x).apply (magnitude x)

@[simp]
theorem apply_negative (n : Int) : Sign.negative.apply n = -n := rfl

@[simp]
theorem apply_positive (n : Int) : Sign.positive.apply n = n := rfl

theorem toNat_unpackMantissa (bits : BitVec 32) :
    (unpackMantissa bits : BitVec Format.binary32.mantissaBitsWithoutImplicit).toNat
      = bits.toNat % 0x800000 := by
  simp [unpackMantissa]

theorem toNat_unpackExponent (bits : BitVec 32) :
    (unpackExponent bits : BitVec Format.binary32.exponentBits).toNat
      = bits.toNat / 0x800000 % 0x100 := by
  simp [unpackExponent, Nat.shiftRight_eq_div_pow]

theorem toNat_unpackSign (bits : BitVec 32) :
    (@unpackSign Format.binary32 bits).toNat = bits.toNat / 0x80000000 := by
  have := bits.isLt
  simp only [unpackSign, BitVec.extractLsb_toNat, BitVec.toNat_cast, Nat.shiftRight_eq_div_pow]
  omega

theorem exponentField_eq (x : Float32) :
    exponentField x = (unpackExponent x.toModel.toBits.toBitVec :
      BitVec Format.binary32.exponentBits).toNat :=
  (toNat_unpackExponent _).symm

theorem mantissaField_eq (x : Float32) :
    mantissaField x = (unpackMantissa x.toModel.toBits.toBitVec :
      BitVec Format.binary32.mantissaBitsWithoutImplicit).toNat :=
  (toNat_unpackMantissa _).symm

theorem sign_eq (x : Float32) :
    sign x = Sign.ofBitVec (@unpackSign Format.binary32 x.toModel.toBits.toBitVec) := by
  have hsign := toNat_unpackSign x.toModel.toBits.toBitVec
  have hbits : x.toBits.toNat = x.toModel.toBits.toBitVec.toNat := rfl
  have hlt := x.toModel.toBits.toBitVec.isLt
  unfold sign isNegative Sign.ofBitVec
  simp only [decide_eq_true_eq, ← BitVec.toNat_inj, hsign, hbits, BitVec.toNat_ofNat]
  split
  next => rw [if_neg (by omega)]
  next => rw [if_pos (by omega)]

theorem exponentField_lt (x : Float32) : exponentField x < 0x100 :=
  Nat.mod_lt _ (by decide)

theorem mantissaField_lt (x : Float32) : mantissaField x < 0x800000 :=
  Nat.mod_lt _ (by decide)

theorem magnitude_eq (x : Float32) : magnitude x = scale x * 0x800000 + significand x := by
  unfold magnitude scale significand exponentField mantissaField
  split <;> omega

theorem significand_lt (x : Float32) : significand x < 0x1000000 := by
  have := mantissaField_lt x
  unfold significand
  split <;> omega

theorem le_significand (h : 0 < scale x) : 0x800000 ≤ significand x := by
  unfold scale at h
  unfold significand
  split <;> omega

theorem significand_of_subnormal (h : exponentField x = 0) : significand x = mantissaField x := by
  rw [significand, if_pos h]

theorem significand_of_normal (h : exponentField x ≠ 0) :
    significand x = 0x800000 + mantissaField x := by
  rw [significand, if_neg h]

theorem magnitude_of_full (h : exponentField x = 255) :
    magnitude x = 0x7F800000 + mantissaField x := by
  have hscale : scale x = 254 := by rw [scale, h]
  rw [magnitude_eq, hscale, significand_of_normal (by omega)]
  omega

theorem magnitude_lt_of_not_full (h : exponentField x ≠ 255) : magnitude x < 0x7F800000 := by
  have hfield := exponentField_lt x
  have hsignificand := significand_lt x
  have hscale : scale x < 254 := by
    unfold scale
    omega
  rw [magnitude_eq]
  omega

theorem isNaN_iff : isNaN x = true ↔ 0x7F800000 < magnitude x := by
  have hmantissa := mantissaField_lt x
  by_cases hfull : exponentField x = 255
  · rw [magnitude_of_full hfull]
    simp only [isNaN, hfull, beq_self_eq_true, Bool.true_and, bne_iff_ne]
    omega
  · have := magnitude_lt_of_not_full hfull
    simp only [isNaN, Bool.and_eq_true, beq_iff_eq, hfull, false_and, false_iff]
    omega

theorem isNaN_eq_false_iff : isNaN x = false ↔ magnitude x ≤ 0x7F800000 := by
  rw [← Bool.not_eq_true, isNaN_iff, Nat.not_lt]

theorem isFinite_iff : isFinite x = true ↔ magnitude x < 0x7F800000 := by
  rw [isFinite, bne_iff_ne]
  by_cases hfull : exponentField x = 255
  · have := magnitude_of_full hfull
    exact iff_of_false (fun h => h hfull) (by omega)
  · exact iff_of_true hfull (magnitude_lt_of_not_full hfull)

theorem isNaN_of_isFinite (h : isFinite x = true) : isNaN x = false := by
  rw [isFinite_iff] at h
  rw [isNaN_eq_false_iff]
  omega

inductive Kind (x : Float32) : UnpackedFloat → Prop where
  | nan (hnan : isNaN x = true) : Kind x .notANumber
  | infinity (hmagnitude : magnitude x = 0x7F800000) : Kind x (.infinity (sign x))
  | zero (hmagnitude : magnitude x = 0) (hsignificand : significand x = 0) :
      Kind x (.zero (sign x))
  | finite (hfinite : magnitude x < 0x7F800000) (hpos : 0 < significand x) :
      Kind x (.finite (sign x) (significand x) (scale x - 149) hpos)

theorem finite_congr {s t : Sign} {m n : Nat} {e f : Int} {hm : 0 < m} {hn : 0 < n} (hs : s = t)
    (hmn : m = n) (he : e = f) : UnpackedFloat.finite s m e hm = .finite t n f hn := by
  subst hs hmn he
  rfl

theorem eq_ofNat_iff {w : Nat} {bits : BitVec w} {n : Nat} (hn : n < 2 ^ w) :
    bits = BitVec.ofNat w n ↔ bits.toNat = n := by
  rw [← BitVec.toNat_inj, BitVec.toNat_ofNat, Nat.mod_eq_of_lt hn]

theorem kind (x : Float32) : Kind x x.toModel.unpack := by
  have hfull : @unpackExponent Format.binary32 x.toModel.toBits.toBitVec = -1#_ ↔
      exponentField x = 255 := by
    rw [exponentField_eq]
    exact eq_ofNat_iff (w := 8) (n := 255) (by decide)
  have hnone : @unpackExponent Format.binary32 x.toModel.toBits.toBitVec = 0#_ ↔
      exponentField x = 0 := by
    rw [exponentField_eq]
    exact eq_ofNat_iff (w := 8) (n := 0) (by decide)
  have hempty : @unpackMantissa Format.binary32 x.toModel.toBits.toBitVec = 0#_ ↔
      mantissaField x = 0 := by
    rw [mantissaField_eq]
    exact eq_ofNat_iff (w := 23) (n := 0) (by decide)
  have hbias : ((Format.binary32.exponentBias : Nat) : Int) = 127 := by decide
  unfold Float32.Model.unpack UnpackedFloat.unpack
  simp only [hfull, hnone, hempty, ← sign_eq]
  split
  next h =>
    have hmagnitude := magnitude_of_full h
    split
    next hm => exact Kind.infinity (by rw [hmagnitude, hm])
    next hm => exact Kind.nan (by rw [isNaN_iff]; omega)
  next h =>
    have hlt := magnitude_lt_of_not_full h
    split
    next hsub =>
      have hsignificand := significand_of_subnormal hsub
      have hscale : scale x = 0 := by rw [scale, hsub]
      split
      next hm =>
        rw [hm] at hsignificand
        exact Kind.zero (by rw [magnitude_eq, hscale, hsignificand]) hsignificand
      next hm =>
        have hkind := Kind.finite hlt (show 0 < significand x by omega)
        refine cast (congrArg _ (finite_congr rfl ?_ ?_)) hkind
        · rw [hsignificand, mantissaField_eq]
        · rw [← exponentField_eq, hscale, hsub, hbias]
          rfl
    next hnormal =>
      have hsignificand := significand_of_normal hnormal
      have hkind := Kind.finite hlt (show 0 < significand x by omega)
      refine cast (congrArg _ (finite_congr rfl ?_ ?_)) hkind
      · rw [BitVec.toNat_append, ← Nat.shiftLeft_add_eq_or_of_lt (BitVec.isLt _),
          ← mantissaField_eq, hsignificand]
        rfl
      · rw [← exponentField_eq, hbias, scale]
        push_cast
        omega

theorem magnitude_lt_of_scale_lt (h : scale x < scale y) : magnitude x < magnitude y := by
  have hle := @le_significand y (by omega)
  have hlt := significand_lt x
  rw [magnitude_eq, magnitude_eq]
  omega

theorem compare_fields (x y : Float32) :
    (compare ((scale x : Int) - 149) ((scale y : Int) - 149)).then
        (compare (significand x) (significand y))
      = compare (magnitude x : Int) (magnitude y) := by
  have hx := magnitude_eq x
  have hy := magnitude_eq y
  obtain hlt | heq | hgt := Nat.lt_trichotomy (scale x) (scale y)
  · have hmagnitude := magnitude_lt_of_scale_lt hlt
    rw [Int.compare_eq_lt.2 (by omega), Int.compare_eq_lt.2 (by omega)]
    rfl
  · rw [heq, Int.compare_eq_eq.2 rfl, Ordering.eq_then]
    obtain hlt | heq | hgt := Nat.lt_trichotomy (significand x) (significand y)
    · rw [Nat.compare_eq_lt.2 hlt, Int.compare_eq_lt.2 (by omega)]
    · rw [Nat.compare_eq_eq.2 heq, Int.compare_eq_eq.2 (by omega)]
    · rw [Nat.compare_eq_gt.2 hgt, Int.compare_eq_gt.2 (by omega)]
  · have hmagnitude := magnitude_lt_of_scale_lt hgt
    rw [Int.compare_eq_gt.2 (by omega), Int.compare_eq_gt.2 (by omega)]
    rfl

theorem compare_neg_neg (a b : Int) : compare (-a) (-b) = (compare a b).swap := by
  obtain hlt | heq | hgt := Int.lt_trichotomy a b
  · rw [Int.compare_eq_lt.2 hlt, Int.compare_eq_gt.2 (by omega)]
    rfl
  · rw [Int.compare_eq_eq.2 heq, Int.compare_eq_eq.2 (by omega)]
    rfl
  · rw [Int.compare_eq_gt.2 hgt, Int.compare_eq_lt.2 (by omega)]
    rfl

theorem compare_sign (s t : Sign) {n : Int} (hn : 0 < n) :
    compare s t = compare (s.apply n) (t.apply n) := by
  symm
  cases s <;> cases t
  · exact Int.compare_eq_eq.2 rfl
  · exact Int.compare_eq_lt.2 (by simp only [apply_negative, apply_positive]; omega)
  · exact Int.compare_eq_gt.2 (by simp only [apply_negative, apply_positive]; omega)
  · exact Int.compare_eq_eq.2 rfl

theorem magnitude_pos (h : 0 < significand x) : 0 < magnitude x := by
  rw [magnitude_eq]
  omega

theorem compare_unpack (hx : isNaN x = false) (hy : isNaN y = false) :
    x.toModel.unpack.compare y.toModel.unpack = some (compare (rank x) (rank y)) := by
  have hkx := kind x
  have hky := kind y
  unfold rank
  generalize x.toModel.unpack = u at hkx ⊢
  generalize y.toModel.unpack = v at hky ⊢
  cases hkx with
  | nan hnan => rw [hx] at hnan; cases hnan
  | infinity hmx =>
    cases hky with
    | nan hnan => rw [hy] at hnan; cases hnan
    | infinity hmy =>
      rw [hmx, hmy, ← compare_sign _ _ (by decide)]
      rfl
    | zero | finite =>
      cases sign x <;> cases sign y <;> symm <;>
        simp only [UnpackedFloat.compare, Option.some.injEq, apply_negative, apply_positive,
          Int.compare_eq_lt, Int.compare_eq_gt] <;> omega
  | zero hmx hsx =>
    cases hky with
    | nan hnan => rw [hy] at hnan; cases hnan
    | infinity | zero =>
      cases sign x <;> cases sign y <;> symm <;>
        simp only [UnpackedFloat.compare, Option.some.injEq, apply_negative, apply_positive,
          Int.compare_eq_lt, Int.compare_eq_gt, Int.compare_eq_eq] <;> omega
    | finite hmy hpos =>
      have hpy := magnitude_pos hpos
      cases sign x <;> cases sign y <;> symm <;>
        simp only [UnpackedFloat.compare, Option.some.injEq, apply_negative, apply_positive,
          Int.compare_eq_lt, Int.compare_eq_gt] <;> omega
  | finite hmx hposx =>
    have hpx := magnitude_pos hposx
    cases hky with
    | nan hnan => rw [hy] at hnan; cases hnan
    | infinity | zero =>
      cases sign x <;> cases sign y <;> symm <;>
        simp only [UnpackedFloat.compare, Option.some.injEq, apply_negative, apply_positive,
          Int.compare_eq_lt, Int.compare_eq_gt] <;> omega
    | finite hmy hposy =>
      have hpy := magnitude_pos hposy
      cases sign x <;> cases sign y
      · simp only [UnpackedFloat.compare, compare_fields, apply_negative, compare_neg_neg]
      · simp only [UnpackedFloat.compare, apply_negative, apply_positive]
        rw [Int.compare_eq_lt.2 (by omega)]
      · simp only [UnpackedFloat.compare, apply_negative, apply_positive]
        rw [Int.compare_eq_gt.2 (by omega)]
      · simp only [UnpackedFloat.compare, compare_fields, apply_positive]

theorem compare_of_isNaN (h : isNaN x = true ∨ isNaN y = true) :
    x.toModel.unpack.compare y.toModel.unpack = none := by
  have hkx := kind x
  have hky := kind y
  generalize x.toModel.unpack = u at hkx ⊢
  generalize y.toModel.unpack = v at hky ⊢
  have hx : isNaN x = true → u = .notANumber := by
    intro hnan
    rw [isNaN_iff] at hnan
    cases hkx with
    | nan => rfl
    | _ => omega
  have hy : isNaN y = true → v = .notANumber := by
    intro hnan
    rw [isNaN_iff] at hnan
    cases hky with
    | nan => rfl
    | _ => omega
  obtain hnan | hnan := h
  · rw [hx hnan]
    rfl
  · rw [hy hnan]
    cases u <;> rfl

theorem le_iff : x ≤ y ↔ isNaN x = false ∧ isNaN y = false ∧ rank x ≤ rank y := by
  have hcompare : x ≤ y ↔ (x.toModel.unpack.compare y.toModel.unpack).any (·.isLE) = true :=
    decide_eq_true_iff
  rw [hcompare]
  by_cases hnan : isNaN x = true ∨ isNaN y = true
  · rw [compare_of_isNaN hnan]
    exact iff_of_false (by decide) (by rintro ⟨hx, hy, -⟩; simp [hx, hy] at hnan)
  · rw [not_or, Bool.not_eq_true, Bool.not_eq_true] at hnan
    rw [compare_unpack hnan.1 hnan.2, Option.any_some, Int.isLE_compare]
    simp only [hnan, true_and]

theorem lt_iff : x < y ↔ isNaN x = false ∧ isNaN y = false ∧ rank x < rank y := by
  have hcompare : x < y ↔ (x.toModel.unpack.compare y.toModel.unpack == some .lt) = true :=
    decide_eq_true_iff
  rw [hcompare]
  by_cases hnan : isNaN x = true ∨ isNaN y = true
  · rw [compare_of_isNaN hnan]
    exact iff_of_false (by decide) (by rintro ⟨hx, hy, -⟩; simp [hx, hy] at hnan)
  · rw [not_or, Bool.not_eq_true, Bool.not_eq_true] at hnan
    rw [compare_unpack hnan.1 hnan.2, beq_iff_eq, Option.some.injEq, Int.compare_eq_lt]
    simp only [hnan, true_and]

theorem le_refl (hx : isNaN x = false) : x ≤ x :=
  le_iff.2 ⟨hx, hx, Int.le_refl _⟩

theorem le_trans (hxy : x ≤ y) (hyz : y ≤ z) : x ≤ z := by
  rw [le_iff] at hxy hyz ⊢
  exact ⟨hxy.1, hyz.2.1, Int.le_trans hxy.2.2 hyz.2.2⟩

theorem lt_of_le_of_lt (hxy : x ≤ y) (hyz : y < z) : x < z := by
  rw [le_iff] at hxy
  rw [lt_iff] at hyz ⊢
  exact ⟨hxy.1, hyz.2.1, by omega⟩

theorem not_le_iff (hx : isNaN x = false) (hy : isNaN y = false) : ¬ x ≤ y ↔ y < x := by
  rw [lt_iff, le_iff]
  simp only [hx, hy, true_and, Int.not_le]

theorem not_lt_iff (hx : isNaN x = false) (hy : isNaN y = false) : ¬ x < y ↔ y ≤ x := by
  rw [lt_iff, le_iff]
  simp only [hx, hy, true_and, Int.not_lt]

theorem rank_lesser (hx : isNaN x = false) (hy : isNaN y = false) :
    isNaN (lesser x y) = false ∧ rank (lesser x y) = min (rank x) (rank y) := by
  unfold lesser
  rw [hx, if_neg (by decide)]
  split
  next h =>
    rw [lt_iff] at h
    exact ⟨hy, by omega⟩
  next h =>
    rw [not_lt_iff hy hx, le_iff] at h
    exact ⟨hx, by omega⟩

theorem rank_greater (hx : isNaN x = false) (hy : isNaN y = false) :
    isNaN (greater x y) = false ∧ rank (greater x y) = max (rank x) (rank y) := by
  unfold greater
  rw [hx, if_neg (by decide)]
  split
  next h =>
    rw [lt_iff] at h
    exact ⟨hy, by omega⟩
  next h =>
    rw [not_lt_iff hx hy, le_iff] at h
    exact ⟨hx, by omega⟩

end Single
end PatchSynth
