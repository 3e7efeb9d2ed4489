import PatchSynth.Proofs.Single.Integer

/-!
This module contains what it means to be the number nearest to a ratio. No finite number is closer to
the ratio, a tie goes to an even significand, and from half a unit beyond the largest finite number
on the nearest number is infinity (`Rounds`).
-/

namespace PatchSynth
namespace Single

open Float.Model Float.Model.UnpackedFloat

variable {x y : Float32} {num den : Nat}

def toRat (x : Float32) : ℚ :=
  inUnits x / 2 ^ 149

/--
Whether a number is what a value that is not negative is rounded to.
-/
structure Rounds (x : Float32) (value : ℚ) : Prop where
  isNaN_eq : isNaN x = false
  isFinite_iff : isFinite x = true ↔ value < 2 ^ 128 - 2 ^ 103
  closest : isFinite x = true → ∀ y, isFinite y = true → |toRat x - value| ≤ |toRat y - value|
  even : isFinite x = true → ∀ y, isFinite y = true → |toRat y - value| = |toRat x - value| →
    toRat y ≠ toRat x → significand x % 2 = 0

theorem roundHalfEven_closest (num : Nat) (hden : 0 < den) (k : Int) :
    |(roundHalfEven num den * den : Int) - num| ≤ |k * den - num| ∧
      (|k * den - num| = |(roundHalfEven num den * den : Int) - num| → k ≠ roundHalfEven num den →
        roundHalfEven num den % 2 = 0) := by
  obtain ⟨hlow, hhigh, htie⟩ := roundHalfEven_spec num hden
  generalize roundHalfEven num den = r at *
  by_cases hk : k = r
  · subst hk
    exact ⟨Int.le_refl _, fun _ hne => absurd rfl hne⟩
  · -- Another multiple is a whole distance away from the rounded one.
    have hgap : k * den + den ≤ (r : Int) * den ∨ (r : Int) * den + den ≤ k * den := by
      obtain hlt | hgt := Int.lt_or_gt_of_ne hk
      · refine Or.inl ?_
        rw [← add_one_mul]
        exact Int.mul_le_mul_of_nonneg_right hlt (by omega)
      · refine Or.inr ?_
        rw [← add_one_mul]
        exact Int.mul_le_mul_of_nonneg_right hgt (by omega)
    have hcast : ((r * den : Nat) : Int) = r * den := by push_cast; rfl
    rw [← hcast] at hgap ⊢
    generalize k * (den : Int) = q at *
    generalize r * den = p at *
    obtain habs | habs := abs_cases (q - (num : Int)) <;>
      obtain habs' | habs' := abs_cases ((p : Int) - num) <;>
      constructor <;> intros <;> omega

theorem exists_inUnits_eq {s : Nat} (h : s ≤ scale y) : ∃ k : Int, inUnits y = k * 2 ^ s := by
  refine ⟨(sign y).apply (significand y * 2 ^ (scale y - s) : Nat), ?_⟩
  have hunits : units y = significand y * 2 ^ (scale y - s) * 2 ^ s := by
    rw [units, Nat.mul_assoc, ← Nat.pow_add, Nat.sub_add_cancel h]
  rw [inUnits, hunits]
  cases sign y <;> simp

theorem inUnits_lt {s : Nat} (h : scale y < s) : inUnits y < 0x800000 * 2 ^ s := by
  have hlt := significand_lt y
  have hpow : 2 ^ (scale y + 1) ≤ 2 ^ s := Nat.pow_le_pow_right (by decide) h
  have hunits : units y < 0x800000 * 2 ^ s := by
    calc units y < 0x1000000 * 2 ^ scale y := Nat.mul_lt_mul_of_pos_right hlt (Nat.two_pow_pos _)
      _ = 0x800000 * 2 ^ (scale y + 1) := by rw [Nat.pow_succ]; ring
      _ ≤ 0x800000 * 2 ^ s := Nat.mul_le_mul_left _ hpow
  zify at hunits
  unfold inUnits
  cases sign y <;> simp only [apply_negative, apply_positive] <;> omega

theorem inUnits_closest (num : Nat) (hden : 0 < den) (y : Float32) :
    let s := scaleOf num den
    let r := roundHalfEven num (den * 2 ^ s)
    |(r * 2 ^ s * den : Int) - num| ≤ |inUnits y * den - num| ∧
      (|inUnits y * den - num| = |(r * 2 ^ s * den : Int) - num| → inUnits y ≠ r * 2 ^ s →
        r % 2 = 0) := by
  intro s r
  have hclosest := roundHalfEven_closest num (Nat.mul_pos hden (Nat.two_pow_pos s))
  have hrounded : (r * 2 ^ s * den : Int) = r * (den * 2 ^ s : Nat) := by push_cast; ring
  rw [hrounded]
  by_cases hscale : s ≤ scale y
  · obtain ⟨k, hk⟩ := exists_inUnits_eq hscale
    obtain ⟨hle, heven⟩ := hclosest k
    have hother : inUnits y * den = k * (den * 2 ^ s : Nat) := by rw [hk]; push_cast; ring
    rw [hother]
    refine ⟨hle, fun htie hne => heven htie ?_⟩
    rintro rfl
    exact hne hk
  · -- A smaller scale is that of numbers below the ratio, with a multiple between them and it.
    have hpositive : 0 < scaleOf num den := by omega
    have hlow := le_of_scaleOf hden hpositive
    have hlt : inUnits y * den < 0x800000 * (den * 2 ^ s : Nat) := by
      calc inUnits y * den < 0x800000 * 2 ^ s * den :=
            Int.mul_lt_mul_of_pos_right (inUnits_lt (by omega)) (by omega)
        _ = 0x800000 * (den * 2 ^ s : Nat) := by push_cast; ring
    obtain ⟨hle, -⟩ := hclosest 0x800000
    have hlow' : (0x800000 * (den * 2 ^ s : Nat) : Int) ≤ num := by exact_mod_cast hlow
    rw [abs_of_nonpos (show (0x800000 : Int) * (den * 2 ^ s : Nat) - num ≤ 0 by omega)] at hle
    rw [abs_of_nonpos (show inUnits y * den - (num : Int) ≤ 0 by omega)]
    constructor
    · exact hle.trans (by omega)
    · intro htie
      rw [← htie] at hle
      omega

theorem nearest_lt_iff (hden : 0 < den) :
    nearest num den < 0x7F800000 ↔ num < (0x1FFFFFF * 2 ^ 252) * den := by
  have hfirst : nearest (0x1FFFFFF * 2 ^ 252) 1 = 0x7F800000 := by decide +kernel
  have hscale : scaleOf (0x1FFFFFF * 2 ^ 252) 1 = 253 := by decide +kernel
  constructor
  · intro h
    by_contra hle
    have hratio : 0x1FFFFFF * 2 ^ 252 * den ≤ num * 1 := by omega
    have := nearest_mono Nat.one_pos hden hratio
    omega
  · intro h
    have hratio : num * 1 ≤ 0x1FFFFFF * 2 ^ 252 * den := by omega
    have hmono := scaleOf_mono hden Nat.one_pos hratio
    obtain ⟨hsignificand, -⟩ := @significand_of_scaleOf num _ hden
    rw [hscale] at hmono
    rw [nearest]
    generalize hs : scaleOf num den = s at *
    obtain hsmall | rfl := Nat.lt_or_eq_of_le hmono
    · omega
    · -- The largest scale of a finite number: a significand that carries is too large.
      obtain ⟨hlow, -⟩ := roundHalfEven_spec num (Nat.mul_pos hden (Nat.two_pow_pos 253))
      have hbelow : 2 * num < 0x1FFFFFF * (den * 2 ^ 253) := by
        calc 2 * num < 2 * (0x1FFFFFF * 2 ^ 252 * den) := by omega
          _ = 0x1FFFFFF * (den * 2 ^ 253) := by ring
      have hround : roundHalfEven num (den * 2 ^ 253) < 0x1000000 := by
        apply Nat.lt_of_mul_lt_mul_right (a := den * 2 ^ 253)
        omega
      omega

theorem abs_toRat_sub (hden : 0 < den) (y : Float32) (num : Nat) :
    |toRat y - num / (den * 2 ^ 149)|
      = (|inUnits y * den - num| : Int) / (den * 2 ^ 149 : ℚ) := by
  have hpos : (0 : ℚ) < den * 2 ^ 149 := by positivity
  have hcommon : toRat y - num / (den * 2 ^ 149)
      = ((inUnits y * den - num : Int) : ℚ) / (den * 2 ^ 149) := by
    rw [toRat]
    push_cast
    field_simp
  rw [hcommon, abs_div, abs_of_pos hpos, Int.cast_abs]

theorem IsNearest.magnitude_eq (h : IsNearest x num den) : magnitude x = nearest num den := by
  have hrank := h.rank_eq
  rw [nearestRank, if_neg (by omega), Int.toNat_natCast, rank] at hrank
  cases hsign : sign x <;> simp only [hsign, apply_negative, apply_positive] at hrank <;> omega

theorem IsNearest.inUnits_eq (hden : 0 < den) (h : IsNearest x num den)
    (hfinite : isFinite x = true) :
    inUnits x = roundHalfEven num (den * 2 ^ scaleOf num den) * 2 ^ scaleOf num den := by
  have hmagnitude := h.magnitude_eq
  rw [isFinite_iff, hmagnitude] at hfinite
  have hunits := units_of_magnitude_nearest hden hfinite hmagnitude
  have hrank := h.rank_eq
  rw [nearestRank, if_neg (by omega), Int.toNat_natCast, rank] at hrank
  have hcast : (units x : Int)
      = roundHalfEven num (den * 2 ^ scaleOf num den) * 2 ^ scaleOf num den := by
    rw [hunits]
    push_cast
    rfl
  rw [← hcast, inUnits]
  cases hsign : sign x with
  | positive => rfl
  | negative =>
    -- Only a zero has the sign that the ratio has not.
    rw [hsign, apply_negative] at hrank
    rw [units_of_magnitude (x := x) (by omega)]
    rfl

theorem IsNearest.even_significand (hden : 0 < den) (h : IsNearest x num den)
    (hfinite : isFinite x = true)
    (heven : roundHalfEven num (den * 2 ^ scaleOf num den) % 2 = 0) : significand x % 2 = 0 := by
  have hmagnitude := h.magnitude_eq
  obtain ⟨hle, hnormal⟩ := @significand_of_scaleOf num _ hden
  rw [isFinite_iff, hmagnitude] at hfinite
  rw [nearest] at hmagnitude hfinite
  generalize roundHalfEven num (den * 2 ^ scaleOf num den) = r at *
  generalize scaleOf num den = s at *
  rw [min_eq_left (by omega)] at hmagnitude
  obtain hlt | rfl := Nat.lt_or_eq_of_le hle
  · rw [(fields_of_magnitude_eq hlt hnormal hmagnitude).2]
    exact heven
  · have hcarry : magnitude x = (s + 1) * 0x800000 + 0x800000 := by omega
    rw [(fields_of_magnitude_eq (by decide) (fun _ => Nat.le_refl _) hcarry).2]

theorem IsNearest.rounds (hden : 0 < den) (h : IsNearest x num den) :
    Rounds x (num / (den * 2 ^ 149)) := by
  have hpos : (0 : ℚ) < den * 2 ^ 149 := by positivity
  refine ⟨h.isNaN_eq, ?_, ?_, ?_⟩
  · rw [isFinite_iff, h.magnitude_eq, nearest_lt_iff hden, div_lt_iff₀ hpos]
    have hbound : ((2 : ℚ) ^ 128 - 2 ^ 103) * (den * 2 ^ 149)
        = ((0x1FFFFFF * 2 ^ 252 * den : Nat) : ℚ) := by
      push_cast
      ring
    rw [hbound, Nat.cast_lt]
  · intro hfinite y _
    rw [abs_toRat_sub hden, abs_toRat_sub hden, h.inUnits_eq hden hfinite]
    have hle := (inUnits_closest num hden y).1
    gcongr
  · intro hfinite y _ htie hne
    rw [abs_toRat_sub hden, abs_toRat_sub hden, div_left_inj' hpos.ne', Int.cast_inj,
      h.inUnits_eq hden hfinite] at htie
    apply h.even_significand hden hfinite
    apply (inUnits_closest num hden y).2 htie
    rintro hsame
    rw [toRat, toRat, hsame, h.inUnits_eq hden hfinite] at hne
    exact hne rfl

end Single
end PatchSynth
