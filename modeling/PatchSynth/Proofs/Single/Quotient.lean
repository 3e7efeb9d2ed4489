import PatchSynth.Proofs.Single.Arithmetic

/-!
This module contains quotients of finite single-precision numbers. The division of two significands
leaves enough bits of the quotient, or the last of them already stands for a unit, and so the rounded
quotient is the number nearest to the exact one (`isNearest_div`).
-/

namespace PatchSynth
namespace Single

open Float.Model Float.Model.UnpackedFloat

variable {x y : Float32} {u v : UnpackedFloat} {n k : Int}

theorem extends_fraction (num : Nat) {den : Nat} (hden : 0 < den) :
    Extends (.ofMantissaAndAccuracy (num / den) (accuracyOfFraction (num % den) den)) num den := by
  unfold accuracyOfFraction
  by_cases hzero : num % den = 0
  · rw [if_pos hzero]
    constructor <;> simp [ExtendedMantissa.ofMantissaAndAccuracy] <;> omega
  · rw [if_neg hzero]
    obtain hlt | heq | hgt := Nat.lt_trichotomy (2 * (num % den)) den
    · rw [Nat.compare_eq_lt.2 hlt]
      constructor <;> simp [ExtendedMantissa.ofMantissaAndAccuracy] <;> omega
    · rw [Nat.compare_eq_eq.2 heq]
      constructor <;> simp [ExtendedMantissa.ofMantissaAndAccuracy] <;> omega
    · rw [Nat.compare_eq_gt.2 hgt]
      constructor <;> simp [ExtendedMantissa.ofMantissaAndAccuracy] <;> omega

theorem le_quotient {m m' shift : Nat} (hpos : 0 < m) (hpos' : 0 < m')
    (h : m'.log2 + 24 ≤ m.log2 + shift) : 0x800000 ≤ m * 2 ^ shift / m' := by
  have hlow := Nat.log2_self_le (n := m) (by omega)
  have hhigh := Nat.lt_log2_self (n := m')
  rw [Nat.le_div_iff_mul_le hpos']
  calc 0x800000 * m'
      ≤ 2 ^ 23 * 2 ^ (m'.log2 + 1) := Nat.mul_le_mul_left _ (Nat.le_of_lt hhigh)
    _ = 2 ^ (m'.log2 + 24) := by rw [← Nat.pow_add]; congr 1; omega
    _ ≤ 2 ^ (m.log2 + shift) := Nat.pow_le_pow_right (by decide) h
    _ ≤ m * 2 ^ shift := by rw [Nat.pow_add]; exact Nat.mul_le_mul_right _ hlow

def quotientExponent (m scale m' scale' : Nat) : Int :=
  min ((scale : Int) - scale') (max ((m.log2 + scale : Int) - (m'.log2 + scale') - 24) (-149))

theorem divCore_eq (m scale m' scale' : Nat) :
    divCore Format.binary32 m (scale - 149) m' (scale' - 149)
      = let shift := ((scale : Int) - scale' - quotientExponent m scale m' scale').toNat
        (m * 2 ^ shift / m', quotientExponent m scale m' scale',
          accuracyOfFraction (m * 2 ^ shift % m') m') := by
  have hmin : Format.binary32.minExponent = -149 := by decide
  have hbits : (Format.binary32.mantissaBits : Int) = 24 := by decide
  have hexponent : (scale : Int) - 149 - (scale' - 149) = scale - scale' := by omega
  have htarget : min ((scale : Int) - scale') (Format.binary32.targetExponent
      (totalExponent m (scale - 149) - totalExponent m' (scale' - 149)))
        = quotientExponent m scale m' scale' := by
    unfold Format.targetExponent totalExponent quotientExponent
    rw [hmin, hbits]
    omega
  unfold divCore
  dsimp only
  rw [hexponent, htarget, Nat.shiftLeft_eq]

theorem has_div (s t : Sign) {m m' scale scale' : Nat} (hpos : 0 < m) (hpos' : 0 < m') :
    Has (ofUnpacked (UnpackedFloat.div Format.binary32 (.finite s m (scale - 149) hpos)
      (.finite t m' (scale' - 149) hpos'))) (s / t)
      (nearest (m * 2 ^ scale * 2 ^ 149) (m' * 2 ^ scale')) := by
  unfold UnpackedFloat.div
  dsimp only
  rw [divCore_eq]
  dsimp only
  generalize htarget : quotientExponent m scale m' scale' = target
  generalize hshift : ((scale : Int) - scale' - target).toNat = shift
  generalize ha : (target + 149).toNat = a
  generalize hb : (-(target + 149)).toNat = b
  have hexponent : target = (a : Int) - b - 149 := by omega
  unfold quotientExponent at htarget
  -- Either the quotient has its bits, or it is not to be shifted to the left.
  have hbits : 0x800000 ≤ m * 2 ^ shift / m' ∨ a = 0 := by
    by_cases hzero : a = 0
    · exact Or.inr hzero
    · exact Or.inl (le_quotient hpos hpos' (by omega))
  have hnonzero : m * 2 ^ shift / m' ≠ 0 ∨ a = 0 := hbits.imp_left (by omega)
  have hroom : a ≤ b + scaleOf (m * 2 ^ shift * 2 ^ a) (m' * 2 ^ b) := by
    rw [scaleOf_div hpos' hnonzero]
    obtain hle | hzero := hbits
    · have := (Nat.le_log2 (k := 23) (by omega)).2 hle
      omega
    · omega
  have hratio : m * 2 ^ shift * 2 ^ a * (m' * 2 ^ scale')
      = m * 2 ^ scale * 2 ^ 149 * (m' * 2 ^ b) := by
    have hpow : (2 : Nat) ^ (shift + a + scale') = 2 ^ (scale + 149 + b) := by
      congr 1
      omega
    simp only [Nat.pow_add] at hpow
    calc m * 2 ^ shift * 2 ^ a * (m' * 2 ^ scale')
        = m * m' * (2 ^ shift * 2 ^ a * 2 ^ scale') := by ring
      _ = m * m' * (2 ^ scale * 2 ^ 149 * 2 ^ b) := by rw [hpow]
      _ = m * 2 ^ scale * 2 ^ 149 * (m' * 2 ^ b) := by ring
  rw [hexponent, ← nearest_congr (Nat.mul_pos hpos' (Nat.two_pow_pos b))
    (Nat.mul_pos hpos' (Nat.two_pow_pos scale')) hratio]
  exact (extends_fraction (m * 2 ^ shift) hpos').has_round hpos' hnonzero hroom

theorem sign_apply {n : Nat} (s : Sign) (hpos : 0 < n) : (s.apply n).sign = s.apply (1 : Nat) := by
  have hone : (n : Int).sign = 1 := Int.sign_eq_one_of_pos (by omega)
  cases s
  · rw [apply_negative, Int.sign_neg, hone, apply_negative, Nat.cast_one]
  · exact hone

theorem natAbs_apply (s : Sign) (n : Nat) : (s.apply n).natAbs = n := by
  cases s
  · rw [apply_negative, Int.natAbs_neg, Int.natAbs_natCast]
  · exact Int.natAbs_natCast n

theorem Amounts.div (hu : Amounts u n) (hv : Amounts v k) (hk : k ≠ 0) :
    IsNearest (ofUnpacked (UnpackedFloat.div Format.binary32 u v)) (n * (2 ^ 149 : Nat) * k.sign)
      k.natAbs := by
  cases hv with
  | zero t => exact absurd rfl hk
  | @finite t m' scale' hpos' hlt' hnormal' =>
    cases hu with
    | zero s =>
      rw [Int.zero_mul, Int.zero_mul]
      exact isNearest_zero _ _
    | @finite s m scale hpos hlt hnormal =>
      have hsigns : s * t = s / t := by cases s <;> cases t <;> rfl
      rw [sign_apply t (Nat.mul_pos hpos' (Nat.two_pow_pos scale')), natAbs_apply, apply_mul,
        apply_mul_apply, hsigns, Nat.cast_one, Int.mul_one, ← Nat.cast_mul]
      exact (has_div s t hpos hpos').isNearest

theorem isNearest_div (hx : isFinite x = true) (hy : isFinite y = true) (hzero : inUnits y ≠ 0) :
    IsNearest (x / y) (inUnits x * (2 ^ 149 : Nat) * (inUnits y).sign) (inUnits y).natAbs :=
  (amounts_unpack hx).div (amounts_unpack hy) hzero

end Single
end PatchSynth
