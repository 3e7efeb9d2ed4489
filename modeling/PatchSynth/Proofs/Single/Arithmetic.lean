import PatchSynth.Proofs.Single.Nearest

/-!
This module contains sums, differences and products of finite single-precision numbers: each is the
number nearest to the exact result. So they keep the order wherever the exact operations do.
-/

namespace PatchSynth
namespace Single

open Float.Model Float.Model.UnpackedFloat

variable {x y z x' y' : Float32} {s : Sign} {m : Nat} {e : Int}

def ofUnpacked (u : UnpackedFloat) : Float32 :=
  .ofModel (.pack u)

structure Has (x : Float32) (s : Sign) (n : Nat) : Prop where
  sign_eq : sign x = s
  magnitude_eq : magnitude x = n

theorem toNat_append {v w : Nat} (a : BitVec v) (b : BitVec w) :
    (a ++ b).toNat = a.toNat * 2 ^ w + b.toNat := by
  rw [BitVec.toNat_append, ← Nat.shiftLeft_add_eq_or_of_lt b.isLt, Nat.shiftLeft_eq]

theorem toNat_packComponents (s : Sign) (exponent : BitVec 8) (mantissa : BitVec 23) :
    (packComponents Format.binary32 s exponent mantissa).toNat
      = s.toBitVec.toNat * 0x80000000 + exponent.toNat * 0x800000 + mantissa.toNat := by
  unfold packComponents
  rw [toNat_append, toNat_append]
  ring

theorem has_of_pack {u : UnpackedFloat} {exponent : BitVec 8} {mantissa : BitVec 23}
    (h : pack Format.binary32 u = packComponents Format.binary32 s exponent mantissa) :
    Has (ofUnpacked u) s (exponent.toNat * 0x800000 + mantissa.toNat) := by
  have hbits : (ofUnpacked u).toBits.toNat
      = s.toBitVec.toNat * 0x80000000 + exponent.toNat * 0x800000 + mantissa.toNat := by
    rw [← toNat_packComponents, ← h]
    rfl
  have hexponent := exponent.isLt
  have hmantissa := mantissa.isLt
  constructor
  · unfold sign isNegative
    rw [hbits]
    cases s
    · rw [if_pos]
      have : (Sign.negative).toBitVec.toNat = 1 := rfl
      simp only [decide_eq_true_eq]
      omega
    · rw [if_neg]
      have : (Sign.positive).toBitVec.toNat = 0 := rfl
      simp only [decide_eq_true_eq]
      omega
  · unfold magnitude
    rw [hbits]
    omega

theorem has_zero (s : Sign) : Has (ofUnpacked (.zero s)) s 0 :=
  @has_of_pack s _ 0 0 rfl

theorem pack_finite {scale significand : Nat} (hpos : 0 < significand)
    (hlt : significand < 0x1000000) :
    pack Format.binary32 (.finite s significand (scale - 149) hpos)
      = if 254 ≤ scale then packComponents Format.binary32 s (-1#_) 0
        else if 0x800000 ≤ significand then
          packComponents Format.binary32 s (BitVec.ofNat 8 (scale + 1))
            (BitVec.ofNat 23 significand)
        else packComponents Format.binary32 s 0 (BitVec.ofNat 23 significand) := by
  have hbias : (((scale : Int) - 149) + Format.binary32.exponentBias
      + Format.binary32.mantissaBitsWithoutImplicit).toNat = scale + 1 := by
    have h : ((Format.binary32.exponentBias : Nat) : Int) = 127 := by decide
    rw [h]
    push_cast
    omega
  have hlog : significand.log2 + 1 = Format.binary32.mantissaBits ↔ 0x800000 ≤ significand := by
    show significand.log2 + 1 = 24 ↔ _
    have hge := @Nat.le_log2 significand 23 (by omega)
    have hle := @Nat.log2_lt significand 24 (by omega)
    omega
  have hhuge : 2 ^ 8 ≤ scale + 1 + 1 ↔ 254 ≤ scale := by omega
  unfold UnpackedFloat.pack
  dsimp only
  rw [hbias]
  simp only [hlog, hhuge]
  rfl

theorem has_finite {scale significand : Nat} (hpos : 0 < significand)
    (hlt : significand < 0x1000000) (hnormal : 0 < scale → 0x800000 ≤ significand) :
    Has (ofUnpacked (.finite s significand (scale - 149) hpos)) s
      (min (scale * 0x800000 + significand) 0x7F800000) := by
  have hpack := @pack_finite s scale significand hpos hlt
  split at hpack
  next hhuge =>
    have hle := hnormal (by omega)
    rw [min_eq_right (by omega)]
    exact has_of_pack hpack
  next hhuge =>
    rw [min_eq_left (by omega)]
    split at hpack
    next hle =>
      have hhas := has_of_pack hpack
      have hfields : (scale + 1) % 2 ^ 8 * 0x800000 + significand % 2 ^ 23
          = scale * 0x800000 + significand := by omega
      rw [BitVec.toNat_ofNat, BitVec.toNat_ofNat, hfields] at hhas
      exact hhas
    next =>
      have hhas := has_of_pack hpack
      have hfields : (0 : BitVec 8).toNat * 0x800000 + significand % 2 ^ 23
          = scale * 0x800000 + significand := by
        rw [show (0 : BitVec 8).toNat = 0 from rfl]
        omega
      rw [BitVec.toNat_ofNat, hfields] at hhas
      exact hhas

/--
Whether a significand with two more bits stands for a ratio that is counted in its last bit.
-/
structure Extends (em : ExtendedMantissa) (num den : Nat) : Prop where
  mantissa_eq : em.mantissa = num / den
  roundBit_iff : em.roundBit = true ↔ den ≤ 2 * (num % den)
  stickyBit_iff : em.stickyBit = true ↔ 2 * (num % den) ≠ 0 ∧ 2 * (num % den) ≠ den

theorem extends_exact (m : Nat) : Extends (.ofMantissaAndAccuracy m .exact) m 1 := by
  constructor <;> simp [ExtendedMantissa.ofMantissaAndAccuracy, Nat.mod_one]

theorem Extends.shiftRightOne {em : ExtendedMantissa} {num den : Nat} (hden : 0 < den)
    (h : Extends em num den) : Extends em.shiftRightOne num (den * 2) := by
  have hmod : num % (den * 2) = num % den + den * (num / den % 2) := Nat.mod_mul
  have hlt := Nat.mod_lt num hden
  obtain ⟨hmantissa, hround, hsticky⟩ := h
  constructor
  · show em.mantissa / 2 = _
    rw [hmantissa, Nat.div_div_eq_div_mul]
  · show (em.mantissa % 2 != 0) = true ↔ _
    rw [bne_iff_ne, hmantissa, hmod]
    obtain hbit | hbit := Nat.mod_two_eq_zero_or_one (num / den) <;> rw [hbit] <;> omega
  · show (em.roundBit || em.stickyBit) = true ↔ _
    rw [Bool.or_eq_true, hround, hsticky, hmod]
    obtain hbit | hbit := Nat.mod_two_eq_zero_or_one (num / den) <;> rw [hbit] <;> omega

theorem Extends.shiftRight {em : ExtendedMantissa} {num den : Nat} (hden : 0 < den)
    (h : Extends em num den) (n : Nat) : Extends (em >>> n) num (den * 2 ^ n) := by
  show Extends (n.repeat ExtendedMantissa.shiftRightOne em) num (den * 2 ^ n)
  induction n with
  | zero =>
    rw [Nat.pow_zero, Nat.mul_one]
    exact h
  | succ n ih =>
    rw [Nat.pow_succ, ← Nat.mul_assoc]
    exact ih.shiftRightOne (Nat.mul_pos hden (Nat.two_pow_pos n))

theorem Extends.roundedMantissa_eq {em : ExtendedMantissa} {num den : Nat} (hden : 0 < den)
    (h : Extends em num den) : em.roundedMantissa = roundHalfEven num den := by
  obtain ⟨hmantissa, hround, hsticky⟩ := h
  have hlt := Nat.mod_lt num hden
  obtain ⟨mantissa, roundBit, stickyBit⟩ := em
  unfold roundHalfEven
  dsimp only at hmantissa hround hsticky ⊢
  subst hmantissa
  cases roundBit <;> cases stickyBit <;>
    simp only [ExtendedMantissa.roundedMantissa, ExtendedMantissa.accuracy,
      Accuracy.roundToNearestEven] <;>
    simp only [Bool.false_eq_true, false_iff, true_iff] at hround hsticky <;>
    split <;> omega

theorem log2_div_eq {num den : Nat} (hden : 0 < den) (hquotient : num / den ≠ 0) (a : Nat) :
    (num * 2 ^ a / den).log2 = (num / den).log2 + a := by
  have hlow := (Nat.le_div_iff_mul_le hden).1 (Nat.log2_self_le hquotient)
  have hhigh := (Nat.div_lt_iff_lt_mul hden).1 (@Nat.lt_log2_self (num / den))
  have hle : 2 ^ ((num / den).log2 + a) ≤ num * 2 ^ a / den := by
    rw [Nat.le_div_iff_mul_le hden, Nat.pow_add, Nat.mul_right_comm]
    exact Nat.mul_le_mul_right _ hlow
  have hlt : num * 2 ^ a / den < 2 ^ ((num / den).log2 + a + 1) := by
    rw [Nat.div_lt_iff_lt_mul hden, Nat.add_right_comm, Nat.pow_add, Nat.mul_right_comm]
    exact Nat.mul_lt_mul_of_pos_right hhigh (Nat.two_pow_pos a)
  have hpos : num * 2 ^ a / den ≠ 0 := by
    have := Nat.two_pow_pos ((num / den).log2 + a)
    omega
  exact (Nat.log2_eq_iff hpos).2 ⟨hle, hlt⟩

theorem scaleOf_div {num den a : Nat} (hden : 0 < den) (h : num / den ≠ 0 ∨ a = 0) (b : Nat) :
    scaleOf (num * 2 ^ a) (den * 2 ^ b) = (num / den).log2 + a - b - 23 := by
  have hlog : (num * 2 ^ a / den).log2 = (num / den).log2 + a := by
    obtain hquotient | rfl := h
    · exact log2_div_eq hden hquotient a
    · rw [Nat.pow_zero, Nat.mul_one, Nat.add_zero]
  rw [scaleOf, ← Nat.div_div_eq_div_mul, Nat.log2_eq_log_two, Nat.log_div_base_pow,
    ← Nat.log2_eq_log_two, hlog]

theorem scaleOf_eq (hm : m ≠ 0) (a b : Nat) :
    scaleOf (m * 2 ^ a) (2 ^ b) = m.log2 + a - b - 23 := by
  have hquotient : m / 1 ≠ 0 ∨ a = 0 := Or.inl (by rwa [Nat.div_one])
  have hscale := scaleOf_div Nat.one_pos hquotient b
  rwa [Nat.one_mul, Nat.div_one] at hscale

theorem targetExponent_eq (m : Nat) (e : Int) :
    Format.binary32.targetExponent (totalExponent m e)
      = ((m.log2 + e + 126).toNat : Int) - 149 := by
  have hmin : Format.binary32.minExponent = -149 := by decide
  have hbits : (Format.binary32.mantissaBits : Int) = 24 := by decide
  unfold Format.targetExponent totalExponent
  rw [hmin, hbits]
  omega

theorem shift_of_lt {scale : Nat} (hlt : m < 0x1000000) :
    shiftToTargetExponent Format.binary32 m (scale - 149) .exact
      = (.ofMantissaAndAccuracy m .exact, (scale : Int) - 149) := by
  have hlog : m.log2 ≤ 23 := by
    by_cases hzero : m = 0
    · rw [hzero]
      decide
    · have := (@Nat.log2_lt m 24 hzero).2 hlt
      omega
  have hamount : (((m.log2 + ((scale : Int) - 149) + 126).toNat : Int) - 149
      - ((scale : Int) - 149)).toNat = 0 := by omega
  rw [shiftToTargetExponent, targetExponent_eq, shiftToExponent, hamount, Int.natCast_zero,
    Int.add_zero]
  rfl

theorem shift_of_carry (scale : Nat) :
    shiftToTargetExponent Format.binary32 0x1000000 (scale - 149) .exact
      = (.ofMantissaAndAccuracy 0x800000 .exact, ((scale + 1 : Nat) : Int) - 149) := by
  have hlog : (0x1000000 : Nat).log2 = 24 := by decide
  have hamount : ((((24 : Nat) + ((scale : Int) - 149) + 126).toNat : Int) - 149
      - ((scale : Int) - 149)).toNat = 1 := by omega
  rw [shiftToTargetExponent, targetExponent_eq, hlog, shiftToExponent, hamount,
    show (scale : Int) - 149 + (1 : Nat) = ((scale + 1 : Nat) : Int) - 149 by omega]
  rfl

theorem Extends.has_round {accuracy : Accuracy} {num den a b : Nat} (hden : 0 < den)
    (h : Extends (.ofMantissaAndAccuracy m accuracy) num den) (hm : m ≠ 0 ∨ a = 0)
    (hshift : a ≤ b + scaleOf (num * 2 ^ a) (den * 2 ^ b)) :
    Has (ofUnpacked (roundWithAccuracy Format.binary32 s m (a - b - 149) accuracy)) s
      (nearest (num * 2 ^ a) (den * 2 ^ b)) := by
  have hquotient : m = num / den := by
    rw [← h.mantissa_eq]
    cases accuracy with
    | exact => rfl
    | inexact relation => cases relation <;> rfl
  have hpos : 0 < den * 2 ^ b := Nat.mul_pos hden (Nat.two_pow_pos b)
  obtain ⟨hle, hnormal⟩ := @significand_of_scaleOf (num * 2 ^ a) _ hpos
  have hscale : (m.log2 + ((a : Int) - b - 149) + 126).toNat
      = scaleOf (num * 2 ^ a) (den * 2 ^ b) := by
    rw [scaleOf_div hden (hquotient ▸ hm), ← hquotient]
    omega
  unfold nearest
  generalize scaleOf (num * 2 ^ a) (den * 2 ^ b) = scale at *
  have hamount : ((scale : Int) - 149 - (a - b - 149)).toNat = b + scale - a := by omega
  have hround : roundHalfEven (num * 2 ^ a) (den * 2 ^ b * 2 ^ scale)
      = roundHalfEven num (den * 2 ^ (b + scale - a)) := by
    rw [Nat.mul_assoc, ← Nat.pow_add, ← Nat.sub_add_cancel hshift, Nat.pow_add, ← Nat.mul_assoc,
      Nat.sub_add_cancel hshift]
    exact roundHalfEven_cancel (Nat.mul_pos hden (Nat.two_pow_pos _)) (Nat.two_pow_pos a)
  have hrounded : (ExtendedMantissa.ofMantissaAndAccuracy m accuracy
      >>> (b + scale - a)).roundedMantissa = roundHalfEven num (den * 2 ^ (b + scale - a)) :=
    (h.shiftRight hden _).roundedMantissa_eq (Nat.mul_pos hden (Nat.two_pow_pos _))
  rw [hround] at hle hnormal ⊢
  unfold roundWithAccuracy
  rw [shiftToTargetExponent, targetExponent_eq, hscale, shiftToExponent, hamount]
  dsimp only
  rw [hrounded, show (a : Int) - b - 149 + ((b + scale - a : Nat) : Int) = scale - 149 by omega]
  generalize roundHalfEven num (den * 2 ^ (b + scale - a)) = r at *
  obtain hlt | rfl := Nat.lt_or_eq_of_le hle
  · simp only [shift_of_lt hlt, ExtendedMantissa.ofMantissaAndAccuracy]
    split
    next hzero =>
      have hnone : scale = 0 := by omega
      subst hzero hnone
      exact has_zero s
    next hzero => exact has_finite _ hlt hnormal
  · simp only [shift_of_carry, ExtendedMantissa.ofMantissaAndAccuracy]
    have hhas := @has_finite s (scale + 1) 0x800000 (by decide)
      (by decide) (fun _ => Nat.le_refl _)
    rw [show (scale + 1) * 0x800000 + 0x800000 = scale * 0x800000 + 0x1000000 by ring] at hhas
    exact hhas

theorem has_round {a b : Nat} (hm : m ≠ 0) (hshift : a ≤ b + scaleOf (m * 2 ^ a) (2 ^ b)) :
    Has (ofUnpacked (roundWithAccuracy Format.binary32 s m (a - b - 149) .exact)) s
      (nearest (m * 2 ^ a) (2 ^ b)) := by
  rw [← Nat.one_mul (2 ^ b)] at hshift ⊢
  exact (extends_exact m).has_round Nat.one_pos (Or.inl hm) hshift

theorem has_round_left (hm : m ≠ 0) (a : Nat) :
    Has (ofUnpacked (UnpackedFloat.round Format.binary32 s m (a - 149))) s
      (nearest (m * 2 ^ a) 1) := by
  have hscale : (m.log2 + ((a : Int) - 149) + 126).toNat = m.log2 + a - 23 := by omega
  generalize hk : a - (m.log2 + a - 23) = k
  have hamount : ((a : Int) - 149 - (((m.log2 + a - 23 : Nat) : Int) - 149)).toNat = k := by omega
  have hvalue : m * 2 ^ k * 2 ^ (a - k) = m * 2 ^ a := by
    rw [Nat.mul_assoc, ← Nat.pow_add, Nat.add_sub_cancel' (by omega)]
  have hshifted : m * 2 ^ k ≠ 0 := Nat.mul_ne_zero hm (by positivity)
  have hhas := has_round (s := s) (a := a - k) (b := 0) hshifted (by
    rw [hvalue, scaleOf_eq hm]
    omega)
  rw [hvalue, show ((a - k : Nat) : Int) - (0 : Nat) - 149 = a - 149 - k by omega] at hhas
  rw [UnpackedFloat.round, targetExponent_eq, hscale, decreaseExponent, hamount, Nat.shiftLeft_eq]
  exact hhas

structure IsNearest (x : Float32) (num : Int) (den : Nat) : Prop where
  isNaN_eq : isNaN x = false
  rank_eq : rank x = nearestRank num den

theorem Has.isNearest {num den : Nat} (h : Has x s (nearest num den)) :
    IsNearest x (s.apply num) den := by
  refine ⟨?_, ?_⟩
  · rw [isNaN_eq_false_iff, h.magnitude_eq]
    exact Nat.min_le_right _ _
  · rw [rank, h.sign_eq, h.magnitude_eq, nearestRank_apply]

theorem isNearest_zero (s : Sign) (den : Nat) : IsNearest (ofUnpacked (.zero s)) 0 den := by
  have hhas := has_zero s
  rw [← nearest_zero den] at hhas
  have hnearest := hhas.isNearest
  cases s <;> exact hnearest

inductive Amounts : UnpackedFloat → Int → Prop where
  | zero (s : Sign) : Amounts (.zero s) 0
  | finite (s : Sign) {significand scale : Nat} (hpos : 0 < significand)
      (hlt : significand < 0x1000000) (hnormal : 0 < scale → 0x800000 ≤ significand) :
      Amounts (.finite s significand (scale - 149) hpos)
        (s.apply (significand * 2 ^ scale : Nat))

theorem amounts_unpack (h : isFinite x = true) : Amounts x.toModel.unpack (inUnits x) := by
  have hkind := kind x
  rw [isFinite_iff] at h
  unfold inUnits
  generalize x.toModel.unpack = u at hkind ⊢
  cases hkind with
  | nan hnan =>
    rw [isNaN_iff] at hnan
    omega
  | infinity hmagnitude => omega
  | zero hmagnitude =>
    rw [units_of_magnitude hmagnitude]
    cases sign x <;> exact Amounts.zero _
  | finite hfinite hpos => exact Amounts.finite _ hpos (significand_lt x) le_significand

variable {u v : UnpackedFloat} {n k : Int}

theorem Amounts.neg (h : Amounts u n) : Amounts u.neg (-n) := by
  cases h with
  | zero s => exact Amounts.zero (-s)
  | finite s hpos hlt hnormal =>
    have hfinite := Amounts.finite (-s) hpos hlt hnormal
    cases s with
    | negative =>
      rw [apply_negative, Int.neg_neg]
      exact hfinite
    | positive => exact hfinite

theorem Amounts.isNearest (h : Amounts u n) : IsNearest (ofUnpacked u) n 1 := by
  cases h with
  | zero s => exact isNearest_zero s 1
  | finite s hpos hlt hnormal =>
    apply Has.isNearest
    rw [nearest_canonical hlt hnormal]
    exact has_finite hpos hlt hnormal

theorem isNearest_normalize (k : Int) (a : Nat) (s : Sign) :
    IsNearest (ofUnpacked (UnpackedFloat.normalize Format.binary32 k (a - 149) s))
      (k * (2 ^ a : Nat)) 1 := by
  unfold UnpackedFloat.normalize
  obtain hneg | rfl | hpos := Int.lt_trichotomy k 0
  · rw [Int.compare_eq_lt.2 hneg]
    have hnearest := (has_round_left (s := .negative) (m := (-k).toNat) (by omega) a).isNearest
    rw [apply_negative, Nat.cast_mul, Int.toNat_of_nonneg (by omega), Int.neg_mul,
      Int.neg_neg] at hnearest
    exact hnearest
  · rw [Int.compare_eq_eq.2 rfl, Int.zero_mul]
    exact isNearest_zero s 1
  · rw [Int.compare_eq_gt.2 hpos]
    have hnearest := (has_round_left (s := .positive) (m := k.toNat) (by omega) a).isNearest
    rw [apply_positive, Nat.cast_mul, Int.toNat_of_nonneg (by omega)] at hnearest
    exact hnearest

theorem apply_mul (s : Sign) (n : Int) (m : Nat) : s.apply n * m = s.apply (n * m) := by
  cases s <;> simp

theorem decreaseExponent_eq {scale low : Nat} (hle : low ≤ scale) (m : Nat) :
    (decreaseExponent m ((scale : Int) - 149) ((low : Int) - 149)).1 * 2 ^ low = m * 2 ^ scale := by
  have hamount : ((scale : Int) - 149 - ((low : Int) - 149)).toNat = scale - low := by omega
  rw [decreaseExponent, hamount, Nat.shiftLeft_eq, Nat.mul_assoc, ← Nat.pow_add,
    Nat.sub_add_cancel hle]

theorem Amounts.add (hu : Amounts u n) (hv : Amounts v k) :
    IsNearest (ofUnpacked (UnpackedFloat.add Format.binary32 u v)) (n + k) 1 := by
  cases hu with
  | zero s =>
    rw [Int.zero_add]
    cases hv with
    | zero t => cases s <;> cases t <;> exact isNearest_zero _ 1
    | finite t hpos hlt hnormal => exact (Amounts.finite t hpos hlt hnormal).isNearest
  | @finite s m scale hpos hlt hnormal =>
    cases hv with
    | zero t =>
      rw [Int.add_zero]
      exact (Amounts.finite s hpos hlt hnormal).isNearest
    | @finite t m' scale' hpos' hlt' hnormal' =>
      have hmin : min ((scale : Int) - 149) ((scale' : Int) - 149)
          = ((min scale scale' : Nat) : Int) - 149 := by omega
      unfold UnpackedFloat.add
      dsimp only
      rw [hmin, ← decreaseExponent_eq (Nat.min_le_left scale scale') m,
        ← decreaseExponent_eq (Nat.min_le_right scale scale') m', Nat.cast_mul, Nat.cast_mul,
        ← apply_mul, ← apply_mul, ← Int.add_mul]
      exact isNearest_normalize _ _ _

theorem shift_of_product {m' scale scale' : Nat} (hpos : 0 < m) (hpos' : 0 < m')
    (hnormal : 0 < scale → 0x800000 ≤ m) (hnormal' : 0 < scale' → 0x800000 ≤ m') :
    scale + scale' ≤ 149 + scaleOf (m * m' * 2 ^ (scale + scale')) (2 ^ 149) := by
  rw [scaleOf_eq (Nat.mul_ne_zero (by omega) (by omega))]
  by_cases hnone : scale = 0 ∧ scale' = 0
  · omega
  have hle : 2 ^ 23 ≤ m * m' := by
    obtain hscale | hscale : 0 < scale ∨ 0 < scale' := by omega
    · exact Nat.le_trans (hnormal hscale) (Nat.le_mul_of_pos_right m hpos')
    · exact Nat.le_trans (hnormal' hscale) (Nat.le_mul_of_pos_left m' hpos)
  have hlog := (Nat.le_log2 (Nat.mul_ne_zero (by omega) (by omega))).2 hle
  omega

theorem apply_mul_apply (s t : Sign) (n k : Int) :
    s.apply n * t.apply k = (s * t).apply (n * k) := by
  cases s <;> cases t <;> simp [apply_negative, apply_positive] <;> rfl

theorem Amounts.mul (hu : Amounts u n) (hv : Amounts v k) :
    IsNearest (ofUnpacked (UnpackedFloat.mul Format.binary32 u v)) (n * k) (2 ^ 149) := by
  cases hu with
  | zero s =>
    rw [Int.zero_mul]
    cases hv <;> exact isNearest_zero _ _
  | @finite s m scale hpos hlt hnormal =>
    cases hv with
    | zero t =>
      rw [Int.mul_zero]
      exact isNearest_zero _ _
    | @finite t m' scale' hpos' hlt' hnormal' =>
      have hproduct : m * 2 ^ scale * (m' * 2 ^ scale') = m * m' * 2 ^ (scale + scale') := by ring
      have hexponent : (scale : Int) - 149 + ((scale' : Int) - 149)
          = ((scale + scale' : Nat) : Int) - (149 : Nat) - 149 := by omega
      have hhas := has_round (s := s * t) (Nat.mul_ne_zero (by omega) (by omega))
        (shift_of_product hpos hpos' hnormal hnormal')
      rw [apply_mul_apply, ← Nat.cast_mul, hproduct]
      unfold UnpackedFloat.mul
      dsimp only
      rw [hexponent]
      exact hhas.isNearest

theorem isNearest_add (hx : isFinite x = true) (hy : isFinite y = true) :
    IsNearest (x + y) (inUnits x + inUnits y) 1 :=
  (amounts_unpack hx).add (amounts_unpack hy)

theorem isNearest_mul (hx : isFinite x = true) (hy : isFinite y = true) :
    IsNearest (x * y) (inUnits x * inUnits y) (2 ^ 149) :=
  (amounts_unpack hx).mul (amounts_unpack hy)

theorem apply_neg (s : Sign) (n : Int) : (-s).apply n = -s.apply n := by
  cases s with
  | negative => rw [apply_negative, Int.neg_neg]; rfl
  | positive => rfl

theorem sub_eq_add_neg (hu : Amounts u n) (hv : Amounts v k) :
    UnpackedFloat.sub Format.binary32 u v = UnpackedFloat.add Format.binary32 u v.neg := by
  cases hu <;> cases hv <;> try rfl
  unfold UnpackedFloat.sub UnpackedFloat.neg UnpackedFloat.add
  dsimp only
  rw [apply_neg, Int.sub_eq_add_neg]

theorem isNearest_sub (hx : isFinite x = true) (hy : isFinite y = true) :
    IsNearest (x - y) (inUnits x - inUnits y) 1 := by
  have hadd := (amounts_unpack hx).add (amounts_unpack hy).neg
  rw [← sub_eq_add_neg (amounts_unpack hx) (amounts_unpack hy), ← Int.sub_eq_add_neg] at hadd
  exact hadd

theorem rank_sub (hx : isFinite x = true) (hy : isFinite y = true) :
    isNaN (x - y) = false ∧ (0 < rank (x - y) ↔ rank y < rank x) ∧
      (rank (x - y) < 0 ↔ rank x < rank y) := by
  have hdifference := isNearest_sub hx hy
  have hone : nearestRank 1 1 = 1 ∧ nearestRank (-1) 1 = -1 := by decide +kernel
  refine ⟨hdifference.isNaN_eq, ?_⟩
  rw [hdifference.rank_eq, ← inUnits_lt_iff hx hy, ← inUnits_lt_iff hy hx]
  obtain hlt | hzero | hgt := Int.lt_trichotomy (inUnits x - inUnits y) 0
  · have := nearestRank_mono Nat.one_pos (show inUnits x - inUnits y ≤ -1 by omega)
    omega
  · have := nearestRank_nonneg (Int.le_of_eq hzero.symm) 1
    have := nearestRank_nonpos (Int.le_of_eq hzero) 1
    omega
  · have := nearestRank_mono Nat.one_pos (show 1 ≤ inUnits x - inUnits y by omega)
    omega

theorem IsNearest.le {n k : Int} {den : Nat} (hx : IsNearest x n den) (hy : IsNearest y k den)
    (hden : 0 < den) (h : n ≤ k) : x ≤ y := by
  rw [le_iff, hx.rank_eq, hy.rank_eq]
  exact ⟨hx.isNaN_eq, hy.isNaN_eq, nearestRank_mono hden h⟩

theorem inUnits_le_of_le (h : x ≤ y) : inUnits x ≤ inUnits y := by
  rw [le_iff] at h
  exact inUnits_le h.2.2

theorem isFinite_of_le_of_le (hx : isFinite x = true) (hz : isFinite z = true) (hxy : x ≤ y)
    (hyz : y ≤ z) : isFinite y = true := by
  rw [le_iff] at hxy hyz
  rw [isFinite_iff] at *
  unfold rank at hxy hyz
  cases hsx : sign x <;> cases hsy : sign y <;> cases hsz : sign z <;>
    simp only [hsx, hsy, hsz, apply_negative, apply_positive] at hxy hyz <;> omega

theorem add_le_add (hx : isFinite x = true) (hx' : isFinite x' = true) (hy : isFinite y = true)
    (hy' : isFinite y' = true) (hxx : x ≤ x') (hyy : y ≤ y') : x + y ≤ x' + y' :=
  (isNearest_add hx hy).le (isNearest_add hx' hy') (by decide)
    (Int.add_le_add (inUnits_le_of_le hxx) (inUnits_le_of_le hyy))

theorem sub_le_sub_left (hx : isFinite x = true) (hy : isFinite y = true)
    (hy' : isFinite y' = true) (hyy : y ≤ y') : x - y' ≤ x - y :=
  (isNearest_sub hx hy').le (isNearest_sub hx hy) (by decide)
    (Int.sub_le_sub_left (inUnits_le_of_le hyy) _)

theorem sub_le_sub_right (hx : isFinite x = true) (hx' : isFinite x' = true)
    (hy : isFinite y = true) (hxx : x ≤ x') : x - y ≤ x' - y :=
  (isNearest_sub hx hy).le (isNearest_sub hx' hy) (by decide)
    (Int.sub_le_sub_right (inUnits_le_of_le hxx) _)

theorem exists_ends_mul {lo hi : Float32} (hlo : lo ≤ y) (hhi : y ≤ hi) (n : Int) :
    (∃ e ∈ [lo, hi], n * inUnits e ≤ n * inUnits y) ∧
      ∃ e ∈ [lo, hi], n * inUnits y ≤ n * inUnits e := by
  have hlo := inUnits_le_of_le hlo
  have hhi := inUnits_le_of_le hhi
  obtain hn | hn := Int.le_total 0 n
  · exact ⟨⟨lo, by simp, Int.mul_le_mul_of_nonneg_left hlo hn⟩,
      ⟨hi, by simp, Int.mul_le_mul_of_nonneg_left hhi hn⟩⟩
  · exact ⟨⟨hi, by simp, Int.mul_le_mul_of_nonpos_left hn hhi⟩,
      ⟨lo, by simp, Int.mul_le_mul_of_nonpos_left hn hlo⟩⟩

theorem exists_corners_mul {a b c d : Float32} (ha : isFinite a = true) (hb : isFinite b = true)
    (hc : isFinite c = true) (hd : isFinite d = true) (hax : a ≤ x) (hxb : x ≤ b) (hcy : c ≤ y)
    (hyd : y ≤ d) :
    (∃ e ∈ [a, b], ∃ f ∈ [c, d], e * f ≤ x * y) ∧ ∃ e ∈ [a, b], ∃ f ∈ [c, d], x * y ≤ e * f := by
  have hends : ∀ e ∈ [a, b], isFinite e = true := by simp [ha, hb]
  have hends' : ∀ f ∈ [c, d], isFinite f = true := by simp [hc, hd]
  have hproduct : IsNearest (x * y) (inUnits x * inUnits y) (2 ^ 149) :=
    isNearest_mul (isFinite_of_le_of_le ha hb hax hxb) (isFinite_of_le_of_le hc hd hcy hyd)
  have hcorner : ∀ e ∈ [a, b], ∀ f ∈ [c, d],
      IsNearest (e * f) (inUnits e * inUnits f) (2 ^ 149) :=
    fun e he f hf => isNearest_mul (hends e he) (hends' f hf)
  -- First one factor goes to an end, then the other.
  obtain ⟨⟨e, he, hlow⟩, ⟨e', he', hhigh⟩⟩ := exists_ends_mul hax hxb (inUnits y)
  obtain ⟨⟨f, hf, hlow'⟩, -⟩ := exists_ends_mul hcy hyd (inUnits e)
  obtain ⟨-, ⟨f', hf', hhigh'⟩⟩ := exists_ends_mul hcy hyd (inUnits e')
  rw [Int.mul_comm (inUnits y), Int.mul_comm (inUnits y)] at hlow hhigh
  exact ⟨⟨e, he, f, hf, (hcorner e he f hf).le hproduct (by decide) (Int.le_trans hlow' hlow)⟩,
    ⟨e', he', f', hf',
      hproduct.le (hcorner e' he' f' hf') (by decide) (Int.le_trans hhigh hhigh')⟩⟩

theorem rank_mul_zero (hx : isFinite x = true) : isNaN (x * 0) = false ∧ rank (x * 0) = 0 := by
  have hproduct := isNearest_mul hx (y := 0) (by decide +kernel)
  have hzero : inUnits (0 : Float32) = 0 := by decide +kernel
  refine ⟨hproduct.isNaN_eq, ?_⟩
  rw [hproduct.rank_eq, hzero, Int.mul_zero]
  simp [nearestRank, nearest_zero]

theorem rank_mul_one (hx : isFinite x = true) : isNaN (x * 1) = false ∧ rank (x * 1) = rank x := by
  have hproduct := isNearest_mul hx (y := 1) (by decide +kernel)
  have hone : inUnits (1 : Float32) = (2 ^ 149 : Nat) := by decide +kernel
  have hcancel := nearestRank_mul (inUnits x) Nat.one_pos (Nat.two_pow_pos 149)
  refine ⟨hproduct.isNaN_eq, ?_⟩
  rw [Nat.one_mul] at hcancel
  rw [hproduct.rank_eq, hone, hcancel, nearestRank_inUnits hx]

end Single
end PatchSynth
