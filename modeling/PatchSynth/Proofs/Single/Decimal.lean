import PatchSynth.Proofs.Single.Closest
import PatchSynth.Proofs.Single.Numeral

/-!
This module contains the numbers that decimal numerals stand for. Each is the number nearest to the
exact value of the numeral, so it is not NaN, and it is not negative, because no numeral has a sign.
-/

namespace PatchSynth
namespace Single

variable {digits : Nat} {exponent : Int}

theorem isNearest_ofRatio (num den : Nat) :
    IsNearest (ofRatio num den) ((num * 2 ^ 149 : Nat) : Int) den := by
  refine ⟨isNaN_ofRatio num den, ?_⟩
  have hsign : sign (ofRatio num den) = .positive := by
    rw [sign, isNegative_ofRatio, if_neg (by decide)]
  rw [rank, hsign, magnitude_ofRatio, apply_positive, nearestRank, if_neg (by omega),
    Int.toNat_natCast]

theorem isNearest_of_nearest_eq_zero {num den : Nat} (h : nearest num den = 0) :
    IsNearest (0 : Float32) num den := by
  have hzero : isNaN (0 : Float32) = false ∧ rank (0 : Float32) = 0 := by decide +kernel
  refine ⟨hzero.1, ?_⟩
  rw [hzero.2, nearestRank, if_neg (by omega), Int.toNat_natCast, h]
  rfl

theorem isNearest_infinity {num den : Nat} (h : nearest num den = 0x7F800000) :
    IsNearest infinity num den := by
  have hinfinity : isNaN infinity = false ∧ rank infinity = 0x7F800000 := by decide +kernel
  refine ⟨hinfinity.1, ?_⟩
  rw [hinfinity.2, nearestRank, if_neg (by omega), Int.toNat_natCast, h]
  rfl

theorem nearest_of_large (hdigits : digits ≠ 0) {k : Nat} (hk : 60 < k) :
    nearest (digits * 10 ^ k * 2 ^ 149) 1 = 0x7F800000 := by
  have hpow : 10 ^ 61 ≤ 10 ^ k := Nat.pow_le_pow_right (by decide) hk
  have hlarge : 0x1FFFFFF * 2 ^ 252 * 1 ≤ digits * 10 ^ k * 2 ^ 149 := by
    calc 0x1FFFFFF * 2 ^ 252 * 1 ≤ 1 * 10 ^ 61 * 2 ^ 149 := by norm_num
      _ ≤ digits * 10 ^ k * 2 ^ 149 :=
        Nat.mul_le_mul_right _ (Nat.mul_le_mul (Nat.pos_of_ne_zero hdigits) hpow)
  have hinfinite := @nearest_lt_iff (digits * 10 ^ k * 2 ^ 149) _ Nat.one_pos
  have hle : nearest (digits * 10 ^ k * 2 ^ 149) 1 ≤ 0x7F800000 := Nat.min_le_right _ _
  omega

theorem nearest_of_lt_half {num den : Nat} (h : 2 * num < den) : nearest num den = 0 := by
  have hscale : scaleOf num den = 0 := by
    rw [scaleOf, Nat.div_eq_of_lt (by omega)]
    decide
  have hround : roundHalfEven num den = 0 := by
    rw [roundHalfEven, Nat.div_eq_of_lt (by omega), Nat.mod_eq_of_lt (by omega)]
    exact if_neg (by omega)
  rw [nearest, hscale, Nat.pow_zero, Nat.mul_one, hround]
  rfl

theorem nearest_of_small {k : Nat} (hk : 60 + digits.log2 < k) :
    nearest (digits * 2 ^ 149) (10 ^ k) = 0 := by
  apply nearest_of_lt_half
  have hdigits : digits < 2 ^ (digits.log2 + 1) := Nat.lt_log2_self
  have hpow : 10 ^ (61 + digits.log2) ≤ 10 ^ k := Nat.pow_le_pow_right (by decide) (by omega)
  have hbase : 2 ^ digits.log2 ≤ 10 ^ digits.log2 := Nat.pow_le_pow_left (by decide) _
  calc 2 * (digits * 2 ^ 149) < 2 * (2 ^ (digits.log2 + 1) * 2 ^ 149) := by omega
    _ = 2 ^ 151 * 2 ^ digits.log2 := by ring
    _ ≤ 10 ^ 61 * 10 ^ digits.log2 := Nat.mul_le_mul (by norm_num) hbase
    _ = 10 ^ (61 + digits.log2) := by rw [Nat.pow_add]
    _ ≤ 10 ^ k := hpow

theorem isNearest_ofDecimal (digits : Nat) (exponent : Int) :
    IsNearest (ofDecimal digits exponent)
      ((digits * 10 ^ exponent.toNat * 2 ^ 149 : Nat) : Int) (10 ^ (-exponent).toNat) := by
  unfold ofDecimal
  split
  next hzero =>
    apply isNearest_of_nearest_eq_zero
    rw [hzero, Nat.zero_mul, Nat.zero_mul, nearest_zero]
  next hdigits =>
    split
    next hlarge =>
      apply isNearest_infinity
      rw [show (-exponent).toNat = 0 by omega]
      exact nearest_of_large hdigits (by omega)
    next =>
      split
      next hsmall =>
        apply isNearest_of_nearest_eq_zero
        rw [show exponent.toNat = 0 by omega, Nat.pow_zero, Nat.mul_one]
        exact nearest_of_small (by omega)
      next => exact isNearest_ofRatio _ _

theorem rounds_ofDecimal (digits : Nat) (exponent : Int) :
    Rounds (ofDecimal digits exponent) (digits * 10 ^ exponent) := by
  have hrounds := (isNearest_ofDecimal digits exponent).rounds (Nat.pow_pos (by decide))
  have hvalue : ((digits * 10 ^ exponent.toNat * 2 ^ 149 : Nat) : ℚ)
      / ((10 ^ (-exponent).toNat : Nat) * 2 ^ 149) = digits * 10 ^ exponent := by
    have hpower : (10 : ℚ) ^ exponent = 10 ^ exponent.toNat / 10 ^ (-exponent).toNat := by
      rw [← zpow_natCast, ← zpow_natCast, ← zpow_sub₀ (by norm_num), Int.toNat_sub_toNat_neg]
    rw [hpower]
    push_cast
    field_simp
    norm_num
  rwa [hvalue] at hrounds

theorem isNegative_ofDecimal (digits : Nat) (exponent : Int) :
    isNegative (ofDecimal digits exponent) = false := by
  unfold ofDecimal
  split
  next => decide +kernel
  next =>
    split
    next => decide +kernel
    next =>
      split
      next => decide +kernel
      next => exact isNegative_ofRatio _ _

theorem digitsValue_append (before after : List Char) :
    digitsValue (before ++ after) = digitsValue before * 10 ^ after.length + digitsValue after := by
  have hvalue : ∀ digits, digitsValue digits = Nat.ofDigitChars 10 digits 0 := fun _ => rfl
  rw [hvalue, hvalue, hvalue, Nat.ofDigitChars_append, Nat.ofDigitChars_eq_ofDigitChars_zero,
    Nat.mul_comm]

namespace Numeral

def exact (numeral : Numeral) : ℚ :=
  let fraction := numeral.fraction.getD []
  (digitsValue numeral.whole + digitsValue fraction / 10 ^ fraction.length)
    * 10 ^ (numeral.exponent.map Exponent.value).getD 0

theorem rounds_value (numeral : Numeral) : Rounds numeral.value numeral.exact := by
  have hrounds := rounds_ofDecimal (digitsValue (numeral.whole ++ numeral.fraction.getD []))
    ((numeral.exponent.map Exponent.value).getD 0 - (numeral.fraction.getD []).length)
  have hexact : numeral.exact = digitsValue (numeral.whole ++ numeral.fraction.getD [])
      * 10 ^ ((numeral.exponent.map Exponent.value).getD 0
        - (numeral.fraction.getD []).length : Int) := by
    rw [exact, digitsValue_append, zpow_sub₀ (by norm_num), zpow_natCast]
    push_cast
    field_simp
  rw [hexact]
  exact hrounds

theorem isNegative_value (numeral : Numeral) : isNegative numeral.value = false :=
  isNegative_ofDecimal _ _

end Numeral
end Single
end PatchSynth
