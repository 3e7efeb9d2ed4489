import PatchSynth.Proofs.Single.Order
import PatchSynth.Single.Nearest

/-!
This module contains the rounding of exact ratios. It keeps the order, and it leaves a number alone
that has its place among the single-precision ones. All ratios are counted in units of `2 ^ (-149)`,
of which every finite number is a multiple.
-/

namespace PatchSynth
namespace Single

open Float.Model Float.Model.UnpackedFloat

variable {x y : Float32} {num den num' den' : Nat}

theorem roundHalfEven_spec (num : Nat) (hden : 0 < den) :
    2 * (roundHalfEven num den * den) ≤ 2 * num + den ∧
      2 * num ≤ 2 * (roundHalfEven num den * den) + den ∧
      (2 * (roundHalfEven num den * den) = 2 * num + den ∨
        2 * num = 2 * (roundHalfEven num den * den) + den → roundHalfEven num den % 2 = 0) := by
  have hdiv := Nat.div_add_mod' num den
  have hmod := Nat.mod_lt num hden
  have hnext : (num / den + 1) * den = num / den * den + den := Nat.succ_mul _ _
  unfold roundHalfEven
  dsimp only
  split
  next h =>
    rw [hnext]
    generalize num / den * den = product at *
    omega
  next h =>
    generalize num / den * den = product at *
    omega

theorem roundHalfEven_mono (hden : 0 < den) (hden' : 0 < den') (h : num * den' ≤ num' * den) :
    roundHalfEven num den ≤ roundHalfEven num' den' := by
  obtain ⟨hlow, -, htie⟩ := roundHalfEven_spec num hden
  obtain ⟨-, hhigh, htie'⟩ := roundHalfEven_spec num' hden'
  generalize roundHalfEven num den = k at hlow htie ⊢
  generalize roundHalfEven num' den' = l at hhigh htie' ⊢
  by_contra hlt
  have hnext : (l + 1) * (den * den') ≤ k * (den * den') := Nat.mul_le_mul_right _ (by omega)
  have hlow' : 2 * (k * (den * den')) ≤ 2 * (num * den') + den * den' := by
    have := Nat.mul_le_mul_right den' hlow
    linarith
  have hhigh' : 2 * (num' * den) ≤ 2 * (l * (den * den')) + den * den' := by
    have := Nat.mul_le_mul_right den hhigh
    linarith
  rw [Nat.succ_mul] at hnext
  -- So both ratios are the middle between two neighbours, of which only one is even.
  have hk : 2 * (k * den) = 2 * num + den := by
    apply Nat.eq_of_mul_eq_mul_right hden'
    linarith
  have hl : 2 * num' = 2 * (l * den') + den' := by
    apply Nat.eq_of_mul_eq_mul_right hden
    linarith
  have hkl : k = l + 1 := by
    apply Nat.eq_of_mul_eq_mul_right (Nat.mul_pos hden hden')
    linarith
  have := htie (Or.inl hk)
  have := htie' (Or.inr hl)
  omega

theorem roundHalfEven_mul (n : Nat) (hden : 0 < den) : roundHalfEven (n * den) den = n := by
  rw [roundHalfEven, Nat.mul_div_cancel _ hden, Nat.mul_mod_left]
  exact if_neg (by omega)

theorem roundHalfEven_cancel {factor : Nat} (hden : 0 < den) (hfactor : 0 < factor) :
    roundHalfEven (num * factor) (den * factor) = roundHalfEven num den := by
  have hpos := Nat.mul_pos hden hfactor
  have hcancel : num * factor * den = num * (den * factor) := by ring
  exact Nat.le_antisymm (roundHalfEven_mono hpos hden (Nat.le_of_eq hcancel))
    (roundHalfEven_mono hden hpos (Nat.le_of_eq hcancel.symm))

theorem roundHalfEven_le {n : Nat} (hden : 0 < den) (h : num ≤ n * den) :
    roundHalfEven num den ≤ n := by
  rw [← roundHalfEven_mul n hden]
  exact roundHalfEven_mono hden hden (Nat.mul_le_mul_right _ h)

theorem le_roundHalfEven {n : Nat} (hden : 0 < den) (h : n * den ≤ num) :
    n ≤ roundHalfEven num den := by
  rw [← roundHalfEven_mul n hden]
  exact roundHalfEven_mono hden hden (Nat.mul_le_mul_right _ h)

def scaleOf (num den : Nat) : Nat :=
  Nat.log2 (num / den) - 23

def nearest (num den : Nat) : Nat :=
  min (scaleOf num den * 0x800000 + roundHalfEven num (den * 2 ^ scaleOf num den)) 0x7F800000

theorem ofRatio_eq (num den : Nat) :
    ofRatio num den = Float32.ofBits (UInt32.ofNat (nearest (num * 2 ^ 149) den)) := rfl

theorem lt_of_scaleOf (hden : 0 < den) : num < 0x1000000 * (den * 2 ^ scaleOf num den) := by
  have hlog : num / den < 2 ^ (scaleOf num den + 24) := by
    refine Nat.lt_of_lt_of_le Nat.lt_log2_self (Nat.pow_le_pow_right (by decide) ?_)
    unfold scaleOf
    omega
  have hlt := (Nat.div_lt_iff_lt_mul hden).1 hlog
  rw [Nat.pow_add] at hlt
  linarith

theorem le_of_scaleOf (hden : 0 < den) (h : 0 < scaleOf num den) :
    0x800000 * (den * 2 ^ scaleOf num den) ≤ num := by
  have hpos : num / den ≠ 0 := by
    intro hzero
    rw [scaleOf, hzero] at h
    exact absurd h (by decide)
  have hlog : 2 ^ (scaleOf num den + 23) ≤ num / den := by
    refine Nat.le_trans (Nat.pow_le_pow_right (by decide) ?_) (Nat.log2_self_le hpos)
    unfold scaleOf at h ⊢
    omega
  have hle := (Nat.le_div_iff_mul_le hden).1 hlog
  rw [Nat.pow_add] at hle
  linarith

theorem scaleOf_mono (hden : 0 < den) (hden' : 0 < den') (h : num * den' ≤ num' * den) :
    scaleOf num den ≤ scaleOf num' den' := by
  have hdiv : num / den ≤ num' / den' := by
    rw [Nat.le_div_iff_mul_le hden']
    refine Nat.le_of_mul_le_mul_right ?_ hden
    have := Nat.mul_le_mul_right den' (Nat.div_mul_le_self num den)
    linarith
  rw [scaleOf, scaleOf, Nat.log2_eq_log_two, Nat.log2_eq_log_two]
  exact Nat.sub_le_sub_right (Nat.log_mono_right hdiv) 23

theorem significand_of_scaleOf (hden : 0 < den) :
    roundHalfEven num (den * 2 ^ scaleOf num den) ≤ 0x1000000 ∧
      (0 < scaleOf num den →
        0x800000 ≤ roundHalfEven num (den * 2 ^ scaleOf num den)) := by
  have hpos : 0 < den * 2 ^ scaleOf num den := Nat.mul_pos hden (by positivity)
  refine ⟨?_, ?_⟩
  · exact roundHalfEven_le hpos (Nat.le_of_lt (lt_of_scaleOf hden))
  · intro h
    exact le_roundHalfEven hpos (le_of_scaleOf hden h)

theorem nearest_mono (hden : 0 < den) (hden' : 0 < den') (h : num * den' ≤ num' * den) :
    nearest num den ≤ nearest num' den' := by
  have hscale := scaleOf_mono hden hden' h
  obtain ⟨hhigh, -⟩ := @significand_of_scaleOf num _ hden
  obtain ⟨-, hlow⟩ := @significand_of_scaleOf num' _ hden'
  refine min_le_min_right _ ?_
  obtain hlt | heq := Nat.lt_or_eq_of_le hscale
  · have := hlow (by omega)
    omega
  · rw [heq]
    apply Nat.add_le_add_left
    have hpos : 0 < 2 ^ scaleOf num' den' := by positivity
    refine roundHalfEven_mono (Nat.mul_pos hden hpos) (Nat.mul_pos hden' hpos) ?_
    have := Nat.mul_le_mul_right (2 ^ scaleOf num' den') h
    linarith

theorem nearest_congr (hden : 0 < den) (hden' : 0 < den') (h : num * den' = num' * den) :
    nearest num den = nearest num' den' :=
  Nat.le_antisymm (nearest_mono hden hden' (Nat.le_of_eq h))
    (nearest_mono hden' hden (Nat.le_of_eq h.symm))

theorem scaleOf_canonical {scale significand : Nat} (hlt : significand < 0x1000000)
    (hnormal : 0 < scale → 0x800000 ≤ significand) :
    scaleOf (significand * 2 ^ scale) 1 = scale := by
  rw [scaleOf, Nat.div_one]
  by_cases hscale : scale = 0
  · rw [hscale, Nat.pow_zero, Nat.mul_one]
    by_cases hzero : significand = 0
    · rw [hzero]
      decide
    · have := (Nat.log2_lt (k := 24) hzero).2 hlt
      omega
  · have hle := hnormal (by omega)
    have hlog : Nat.log2 (significand * 2 ^ scale) = 23 + scale := by
      rw [Nat.log2_eq_iff (by positivity)]
      constructor
      · rw [Nat.pow_add]
        exact Nat.mul_le_mul_right _ hle
      · rw [show 23 + scale + 1 = 24 + scale by omega, Nat.pow_add]
        exact Nat.mul_lt_mul_of_pos_right hlt (by positivity)
    omega

theorem nearest_canonical {scale significand : Nat} (hlt : significand < 0x1000000)
    (hnormal : 0 < scale → 0x800000 ≤ significand) :
    nearest (significand * 2 ^ scale) 1 = min (scale * 0x800000 + significand) 0x7F800000 := by
  rw [nearest, scaleOf_canonical hlt hnormal, Nat.one_mul,
    roundHalfEven_mul _ (Nat.two_pow_pos scale)]

def units (x : Float32) : Nat :=
  significand x * 2 ^ scale x

theorem nearest_units (h : isFinite x = true) : nearest (units x) 1 = magnitude x := by
  rw [isFinite_iff] at h
  rw [units, nearest_canonical (significand_lt x) le_significand, ← magnitude_eq]
  omega

theorem units_le (h : magnitude x ≤ magnitude y) : units x ≤ units y := by
  obtain hlt | heq | hgt := Nat.lt_trichotomy (scale x) (scale y)
  · have hhigh := significand_lt x
    have hlow := @le_significand y (by omega)
    have hpow : 2 ^ (scale x + 1) ≤ 2 ^ scale y := Nat.pow_le_pow_right (by decide) hlt
    calc units x ≤ 0x1000000 * 2 ^ scale x := Nat.mul_le_mul_right _ (by omega)
      _ = 0x800000 * 2 ^ (scale x + 1) := by rw [Nat.pow_succ]; ring
      _ ≤ units y := Nat.mul_le_mul hlow hpow
  · rw [magnitude_eq, magnitude_eq, heq] at h
    rw [units, units, heq]
    exact Nat.mul_le_mul_right _ (by omega)
  · have := magnitude_lt_of_scale_lt hgt
    omega

theorem nearest_zero (den : Nat) : nearest 0 den = 0 := by
  have hscale : scaleOf 0 den = 0 := by
    rw [scaleOf, Nat.zero_div]
    decide
  simp [nearest, hscale, roundHalfEven]

def inUnits (x : Float32) : Int :=
  (sign x).apply (units x)

def nearestRank (num : Int) (den : Nat) : Int :=
  if num < 0 then -nearest (-num).toNat den else nearest num.toNat den

theorem nearestRank_apply (s : Sign) (num den : Nat) :
    nearestRank (s.apply num) den = s.apply (nearest num den) := by
  cases s with
  | positive =>
    rw [nearestRank, apply_positive, if_neg (by omega), Int.toNat_natCast, apply_positive]
  | negative =>
    rw [nearestRank, apply_negative, Int.neg_neg, Int.toNat_natCast, apply_negative]
    split
    next => rfl
    next h =>
      have hzero : num = 0 := by omega
      simp [hzero, nearest_zero]

theorem nearestRank_mono {num num' : Int} (hden : 0 < den) (h : num ≤ num') :
    nearestRank num den ≤ nearestRank num' den := by
  have hmono : ∀ {m n : Nat}, m ≤ n → nearest m den ≤ nearest n den := fun hle =>
    nearest_mono hden hden (Nat.mul_le_mul_right _ hle)
  unfold nearestRank
  split
  next hneg =>
    split
    next =>
      have := hmono (show (-num').toNat ≤ (-num).toNat by omega)
      omega
    next => omega
  next hneg =>
    rw [if_neg (by omega)]
    exact_mod_cast hmono (show num.toNat ≤ num'.toNat by omega)

theorem nearestRank_mul (num : Int) (hden : 0 < den) {factor : Nat} (hfactor : 0 < factor) :
    nearestRank (num * factor) (den * factor) = nearestRank num den := by
  have hcancel : ∀ n : Nat, nearest (n * factor) (den * factor) = nearest n den := by
    intro n
    refine nearest_congr (Nat.mul_pos hden hfactor) hden ?_
    rw [Nat.mul_assoc, Nat.mul_comm factor den]
  obtain ⟨s, n, rfl⟩ : ∃ (s : Sign) (n : Nat), num = s.apply n := by
    obtain hneg | hpos := Int.lt_or_le num 0
    · exact ⟨.negative, (-num).toNat, by rw [apply_negative]; omega⟩
    · exact ⟨.positive, num.toNat, by rw [apply_positive]; omega⟩
  have hmul : s.apply n * factor = s.apply ((n * factor : Nat) : Int) := by
    cases s <;> simp
  rw [hmul, nearestRank_apply, nearestRank_apply, hcancel]

theorem nearestRank_inUnits (h : isFinite x = true) : nearestRank (inUnits x) 1 = rank x := by
  rw [inUnits, nearestRank_apply, nearest_units h, rank]

theorem units_of_magnitude (h : magnitude x = 0) : units x = 0 := by
  rw [magnitude_eq] at h
  rw [units, show significand x = 0 by omega, Nat.zero_mul]

theorem inUnits_le (h : rank x ≤ rank y) : inUnits x ≤ inUnits y := by
  unfold rank at h
  unfold inUnits
  cases hx : sign x <;> cases hy : sign y <;>
    simp only [hx, hy, apply_negative, apply_positive] at h ⊢
  · have := units_le (x := y) (y := x) (by omega)
    omega
  · omega
  · rw [units_of_magnitude (x := x) (by omega), units_of_magnitude (x := y) (by omega)]
    decide
  · have := units_le (x := x) (y := y) (by omega)
    omega

theorem inUnits_lt_iff (hx : isFinite x = true) (hy : isFinite y = true) :
    inUnits x < inUnits y ↔ rank x < rank y := by
  constructor
  · intro h
    by_contra hle
    have := inUnits_le (Int.not_lt.1 hle)
    omega
  · intro h
    by_contra hle
    have hmono := nearestRank_mono Nat.one_pos (Int.not_lt.1 hle)
    rw [nearestRank_inUnits hx, nearestRank_inUnits hy] at hmono
    omega

theorem inUnits_nonneg (h : 0 ≤ rank x) : 0 ≤ inUnits x := by
  have hzero : rank (0 : Float32) = 0 ∧ inUnits (0 : Float32) = 0 := by decide +kernel
  rw [← hzero.2]
  exact inUnits_le (by omega)

theorem inUnits_nonpos (h : rank x ≤ 0) : inUnits x ≤ 0 := by
  have hzero : rank (0 : Float32) = 0 ∧ inUnits (0 : Float32) = 0 := by decide +kernel
  rw [← hzero.2]
  exact inUnits_le (by omega)

theorem inUnits_eq_zero (h : rank x = 0) : inUnits x = 0 :=
  Int.le_antisymm (inUnits_nonpos (Int.le_of_eq h)) (inUnits_nonneg (Int.le_of_eq h.symm))

theorem rank_eq_zero_iff : rank x = 0 ↔ magnitude x = 0 := by
  unfold rank
  cases sign x <;> simp

theorem nearestRank_nonneg {num : Int} (h : 0 ≤ num) (den : Nat) : 0 ≤ nearestRank num den := by
  rw [nearestRank, if_neg (by omega)]
  omega

theorem nearestRank_nonpos {num : Int} (h : num ≤ 0) (den : Nat) : nearestRank num den ≤ 0 := by
  unfold nearestRank
  split
  next => omega
  next =>
    have hzero : num.toNat = 0 := by omega
    rw [hzero, nearest_zero]
    decide

end Single
end PatchSynth
