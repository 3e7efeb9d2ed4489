import PatchSynth.Proofs.Single.Special

/-!
This module contains the order of products, that of the infinities included. A product with a number
that is not negative keeps the order, and one with a number that is not positive reverses it
(`rank_mul_mono`), wherever neither product is NaN.
-/

namespace PatchSynth
namespace Single

open Float.Model Float.Model.UnpackedFloat

variable {x y z : Float32}

theorem apply_apply (s t : Sign) (n : Int) : (s * t).apply n = s.apply (t.apply n) := by
  cases s with
  | negative =>
    cases t with
    | negative => exact (Int.neg_neg n).symm
    | positive => rfl
  | positive => cases t <;> rfl

theorem rank_mul_of_infinite (hx : isNaN x = false) (hy : isNaN y = false)
    (hinfinite : isFinite x = false ∨ isFinite y = false) (hproduct : isNaN (x * y) = false) :
    rank (x * y) = (sign x).apply ((sign y).apply 0x7F800000) := by
  rw [← apply_apply]
  have hinfinity : rank (ofUnpacked (.infinity (sign x * sign y)))
      = (sign x * sign y).apply 0x7F800000 := (has_infinity _).rank_eq
  have hkx := kind x
  have hky := kind y
  rw [← Bool.not_eq_true, ← Bool.not_eq_true, isFinite_iff, isFinite_iff] at hinfinite
  rw [← hinfinity]
  show rank (ofUnpacked (UnpackedFloat.mul Format.binary32 x.toModel.unpack y.toModel.unpack)) = _
  replace hproduct : isNaN (ofUnpacked
    (UnpackedFloat.mul Format.binary32 x.toModel.unpack y.toModel.unpack)) = false := hproduct
  generalize x.toModel.unpack = u at hkx hproduct ⊢
  generalize y.toModel.unpack = v at hky hproduct ⊢
  have hnan : ¬isNaN (ofUnpacked .notANumber) = false := by
    rw [isNaN_notANumber]
    decide
  cases hkx with
  | nan h => rw [hx] at h; cases h
  | infinity =>
    cases hky with
    | nan h => rw [hy] at h; cases h
    | zero => exact absurd hproduct hnan
    | _ => rfl
  | zero hmx =>
    cases hky with
    | nan h => rw [hy] at h; cases h
    | infinity => exact absurd hproduct hnan
    | _ => omega
  | finite hmx =>
    cases hky with
    | nan h => rw [hy] at h; cases h
    | infinity => rfl
    | _ => omega

theorem rank_mul_mono (hx : isNaN x = false) (hy : isNaN y = false) (hz : isNaN z = false)
    (h : rank x ≤ rank y) (hxz : isNaN (x * z) = false) (hyz : isNaN (y * z) = false) :
    (0 ≤ rank z → rank (x * z) ≤ rank (y * z)) ∧ (rank z ≤ 0 → rank (y * z) ≤ rank (x * z)) := by
  by_cases hfinite : isFinite x = true ∧ isFinite y = true ∧ isFinite z = true
  · obtain ⟨hfx, hfy, hfz⟩ := hfinite
    have hunits := inUnits_le h
    rw [(isNearest_mul hfx hfz).rank_eq, (isNearest_mul hfy hfz).rank_eq]
    constructor
    · intro hsign
      exact nearestRank_mono (by decide)
        (Int.mul_le_mul_of_nonneg_right hunits (inUnits_nonneg hsign))
    · intro hsign
      exact nearestRank_mono (by decide)
        (Int.mul_le_mul_of_nonpos_right hunits (inUnits_nonpos hsign))
  · -- An infinity is at the end of all ranks, and so is a product with it.
    have hbounds := rank_bounds hxz
    have hbounds' := rank_bounds hyz
    have hendx := fun hinfinite => rank_mul_of_infinite hx hz hinfinite hxz
    have hendy := fun hinfinite => rank_mul_of_infinite hy hz hinfinite hyz
    have hzerox := isNaN_mul hx hz
    have hzeroy := isNaN_mul hy hz
    simp only [hxz, hyz, Bool.false_eq_true, false_iff] at hzerox hzeroy
    rw [isNaN_eq_false_iff] at hx hy hz
    simp only [← Bool.not_eq_true, isFinite_iff] at hfinite hendx hendy
    generalize rank (x * z) = product at *
    generalize rank (y * z) = product' at *
    unfold rank at h ⊢
    cases hsx : sign x <;> cases hsy : sign y <;> cases hsz : sign z <;>
      simp only [hsx, hsy, hsz, apply_negative, apply_positive] at h hendx hendy ⊢ <;> omega

theorem rank_mul_sign (hx : isNaN x = false) (hy : isNaN y = false)
    (hproduct : isNaN (x * y) = false) :
    (0 ≤ rank x ∧ 0 ≤ rank y ∨ rank x ≤ 0 ∧ rank y ≤ 0 → 0 ≤ rank (x * y)) ∧
      (0 ≤ rank x ∧ rank y ≤ 0 ∨ rank x ≤ 0 ∧ 0 ≤ rank y → rank (x * y) ≤ 0) := by
  by_cases hfinite : isFinite x = true ∧ isFinite y = true
  · rw [(isNearest_mul hfinite.1 hfinite.2).rank_eq]
    constructor
    · rintro (⟨hrank, hrank'⟩ | ⟨hrank, hrank'⟩) <;> apply nearestRank_nonneg
      · exact Int.mul_nonneg (inUnits_nonneg hrank) (inUnits_nonneg hrank')
      · exact Int.mul_nonneg_of_nonpos_of_nonpos (inUnits_nonpos hrank) (inUnits_nonpos hrank')
    · rintro (⟨hrank, hrank'⟩ | ⟨hrank, hrank'⟩) <;> apply nearestRank_nonpos
      · exact Int.mul_nonpos_of_nonneg_of_nonpos (inUnits_nonneg hrank) (inUnits_nonpos hrank')
      · exact Int.mul_nonpos_of_nonpos_of_nonneg (inUnits_nonpos hrank) (inUnits_nonneg hrank')
  · -- Neither factor is a zero, or else the product were NaN.
    have hzero := isNaN_mul hx hy
    have hend := fun hinfinite => rank_mul_of_infinite hx hy hinfinite hproduct
    simp only [hproduct, Bool.false_eq_true, false_iff] at hzero
    simp only [← Bool.not_eq_true, isFinite_iff] at hfinite hend
    rw [isNaN_eq_false_iff] at hx hy
    rw [hend (by omega)]
    unfold rank
    cases hsx : sign x <;> cases hsy : sign y <;>
      simp only [apply_negative, apply_positive] <;> omega

theorem rank_of_isNaN_mul (hx : isNaN x = false) (hy : isNaN y = false)
    (hproduct : isNaN (x * y) = true) : rank x = 0 ∨ rank y = 0 := by
  obtain ⟨-, hzero⟩ | ⟨hzero, -⟩ := (isNaN_mul hx hy).1 hproduct
  · exact Or.inr (rank_eq_zero_iff.2 hzero)
  · exact Or.inl (rank_eq_zero_iff.2 hzero)

end Single
end PatchSynth
