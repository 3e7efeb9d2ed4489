import PatchSynth.Proofs.Single.Arithmetic

/-!
This module contains the arithmetic of infinities, NaN and zeros. A sum with an infinity is that
infinity, so that sums with a finite number keep the order of all numbers (`add_le_add_left`). NaN
comes from two infinities, from the product of an infinity with a zero, and from NaN itself.
-/

namespace PatchSynth
namespace Single

open Float.Model Float.Model.UnpackedFloat

variable {x y z : Float32} {s : Sign}

theorem isNaN_notANumber : isNaN (ofUnpacked .notANumber) = true := by
  decide +kernel

theorem has_infinity (s : Sign) : Has (ofUnpacked (.infinity s)) s 0x7F800000 :=
  @has_of_pack s _ (-1) 0 rfl

theorem Has.isNaN_eq {n : Nat} (h : Has x s n) (hn : n ≤ 0x7F800000) : isNaN x = false := by
  rw [isNaN_eq_false_iff, h.magnitude_eq]
  exact hn

theorem Has.rank_eq {n : Nat} (h : Has x s n) : rank x = s.apply n := by
  rw [rank, h.sign_eq, h.magnitude_eq]

theorem unpack_of_isNaN (h : isNaN x = true) : x.toModel.unpack = .notANumber := by
  have hkind := kind x
  rw [isNaN_iff] at h
  generalize x.toModel.unpack = u at hkind ⊢
  cases hkind with
  | nan => rfl
  | _ => omega

theorem unpack_of_infinite (h : magnitude x = 0x7F800000) :
    x.toModel.unpack = .infinity (sign x) := by
  have hkind := kind x
  generalize x.toModel.unpack = u at hkind ⊢
  cases hkind with
  | infinity => rfl
  | nan hnan =>
    rw [isNaN_iff] at hnan
    omega
  | _ => omega

theorem magnitude_of_not_finite (hnan : isNaN x = false) (h : isFinite x = false) :
    magnitude x = 0x7F800000 := by
  rw [isNaN_eq_false_iff] at hnan
  rw [← Bool.not_eq_true, isFinite_iff] at h
  omega

theorem isNaN_of_infinite (h : magnitude x = 0x7F800000) : isNaN x = false :=
  isNaN_eq_false_iff.2 (Nat.le_of_eq h)

theorem rank_bounds (h : isNaN x = false) : -0x7F800000 ≤ rank x ∧ rank x ≤ 0x7F800000 := by
  rw [isNaN_eq_false_iff] at h
  unfold rank
  cases sign x <;> simp only [apply_negative, apply_positive] <;> omega

theorem rank_of_isFinite (h : isFinite x = true) : -0x7F800000 < rank x ∧ rank x < 0x7F800000 := by
  rw [isFinite_iff] at h
  unfold rank
  cases sign x <;> simp only [apply_negative, apply_positive] <;> omega

theorem rank_of_infinite (h : magnitude x = 0x7F800000) :
    rank x = -0x7F800000 ∨ rank x = 0x7F800000 := by
  rw [rank, h]
  cases sign x
  · exact Or.inl rfl
  · exact Or.inr rfl

theorem beq_iff_rank (hx : isNaN x = false) (hy : isNaN y = false) :
    (x == y) = true ↔ rank x = rank y := by
  show (x.toModel.unpack.compare y.toModel.unpack == some .eq) = true ↔ _
  rw [compare_unpack hx hy, beq_iff_eq, Option.some.injEq, Int.compare_eq_eq]

theorem add_of_isNaN (x : Float32) (hy : isNaN y = true) : isNaN (x + y) = true := by
  show isNaN (ofUnpacked (UnpackedFloat.add Format.binary32 x.toModel.unpack y.toModel.unpack))
    = true
  rw [unpack_of_isNaN hy]
  cases x.toModel.unpack <;> exact isNaN_notANumber

theorem mul_of_isNaN (x : Float32) (hy : isNaN y = true) : isNaN (x * y) = true := by
  show isNaN (ofUnpacked (UnpackedFloat.mul Format.binary32 x.toModel.unpack y.toModel.unpack))
    = true
  rw [unpack_of_isNaN hy]
  cases x.toModel.unpack <;> exact isNaN_notANumber

theorem Amounts.add_infinity {u : UnpackedFloat} {n : Int} (hu : Amounts u n) (s : Sign) :
    UnpackedFloat.add Format.binary32 u (.infinity s) = .infinity s := by
  cases hu <;> rfl

theorem Amounts.infinity_div {u : UnpackedFloat} {n : Int} (hu : Amounts u n) (s : Sign) :
    ∃ t, UnpackedFloat.div Format.binary32 (.infinity s) u = .infinity t := by
  cases hu <;> exact ⟨_, rfl⟩

theorem Amounts.div_infinity {u : UnpackedFloat} {n : Int} (hu : Amounts u n) (s : Sign) :
    ∃ t, UnpackedFloat.div Format.binary32 u (.infinity s) = .zero t := by
  cases hu <;> exact ⟨_, rfl⟩

theorem add_of_infinite (hx : isFinite x = true) (hy : magnitude y = 0x7F800000) :
    isNaN (x + y) = false ∧ rank (x + y) = rank y := by
  have hsum : Has (x + y) (sign y) 0x7F800000 := by
    show Has (ofUnpacked (UnpackedFloat.add Format.binary32 x.toModel.unpack y.toModel.unpack)) _ _
    rw [unpack_of_infinite hy, (amounts_unpack hx).add_infinity]
    exact has_infinity (sign y)
  refine ⟨hsum.isNaN_eq (Nat.le_refl _), ?_⟩
  rw [hsum.rank_eq, rank, hy]

theorem isNaN_add (hx : isFinite x = true) : isNaN (x + y) = isNaN y := by
  cases hnan : isNaN y with
  | true => exact add_of_isNaN x hnan
  | false =>
    cases hy : isFinite y with
    | true => exact (isNearest_add hx hy).isNaN_eq
    | false => exact (add_of_infinite hx (magnitude_of_not_finite hnan hy)).1

theorem add_le_add_left (hx : isFinite x = true) (h : y ≤ z) : x + y ≤ x + z := by
  obtain ⟨hy, hz, hle⟩ := le_iff.1 h
  have hsum : isNaN (x + y) = false := (isNaN_add hx).trans hy
  have hsum' : isNaN (x + z) = false := (isNaN_add hx).trans hz
  have hbounds := rank_bounds hsum
  have hbounds' := rank_bounds hsum'
  -- An infinity is the sum as well, at one end of all ranks.
  have hinfinite : ∀ {w : Float32}, isNaN w = false → isFinite w = false →
      rank (x + w) = rank w ∧ (rank w = -0x7F800000 ∨ rank w = 0x7F800000) := by
    intro w hnan hfinite
    have hmagnitude := magnitude_of_not_finite hnan hfinite
    exact ⟨(add_of_infinite hx hmagnitude).2, rank_of_infinite hmagnitude⟩
  cases hfy : isFinite y with
  | true =>
    cases hfz : isFinite z with
    | true => exact add_le_add hx hx hfy hfz (le_refl (isNaN_of_isFinite hx)) h
    | false =>
      have hrank := rank_of_isFinite hfy
      have hend := hinfinite hz hfz
      exact le_iff.2 ⟨hsum, hsum', by omega⟩
  | false =>
    have hend := hinfinite hy hfy
    cases hfz : isFinite z with
    | true =>
      have hrank := rank_of_isFinite hfz
      exact le_iff.2 ⟨hsum, hsum', by omega⟩
    | false =>
      have hend' := hinfinite hz hfz
      exact le_iff.2 ⟨hsum, hsum', by omega⟩

theorem isNaN_mul (hx : isNaN x = false) (hy : isNaN y = false) :
    isNaN (x * y) = true ↔ magnitude x = 0x7F800000 ∧ magnitude y = 0 ∨
      magnitude x = 0 ∧ magnitude y = 0x7F800000 := by
  by_cases hfinite : isFinite x = true ∧ isFinite y = true
  · rw [(isNearest_mul hfinite.1 hfinite.2).isNaN_eq]
    rw [isFinite_iff, isFinite_iff] at hfinite
    simp only [Bool.false_eq_true, false_iff]
    omega
  · have hinfinity : ∀ s : Sign, ¬isNaN (ofUnpacked (.infinity s)) = true := by
      intro s
      rw [(has_infinity s).isNaN_eq (Nat.le_refl _)]
      decide
    have hkx := kind x
    have hky := kind y
    rw [isFinite_iff, isFinite_iff] at hfinite
    show isNaN (ofUnpacked (UnpackedFloat.mul Format.binary32 x.toModel.unpack y.toModel.unpack))
      = true ↔ _
    generalize x.toModel.unpack = u at hkx ⊢
    generalize y.toModel.unpack = v at hky ⊢
    cases hkx with
    | nan hnan => rw [hx] at hnan; cases hnan
    | infinity hmx =>
      cases hky with
      | nan hnan => rw [hy] at hnan; cases hnan
      | infinity hmy => exact iff_of_false (hinfinity _) (by omega)
      | zero hmy => exact iff_of_true isNaN_notANumber (Or.inl ⟨hmx, hmy⟩)
      | finite hmy hpos =>
        have := magnitude_pos hpos
        exact iff_of_false (hinfinity _) (by omega)
    | zero hmx =>
      cases hky with
      | nan hnan => rw [hy] at hnan; cases hnan
      | infinity hmy => exact iff_of_true isNaN_notANumber (Or.inr ⟨hmx, hmy⟩)
      | _ => omega
    | finite hmx hpos =>
      have := magnitude_pos hpos
      cases hky with
      | nan hnan => rw [hy] at hnan; cases hnan
      | infinity hmy => exact iff_of_false (hinfinity _) (by omega)
      | _ => omega

theorem div_infinite (hx : magnitude x = 0x7F800000) (hy : magnitude y = 0x7F800000) :
    isNaN (x / y) = true := by
  show isNaN (ofUnpacked (UnpackedFloat.div Format.binary32 x.toModel.unpack y.toModel.unpack))
    = true
  rw [unpack_of_infinite hx, unpack_of_infinite hy]
  exact isNaN_notANumber

theorem magnitude_infinite_div (hx : magnitude x = 0x7F800000) (hy : isFinite y = true) :
    magnitude (x / y) = 0x7F800000 := by
  show magnitude (ofUnpacked (UnpackedFloat.div Format.binary32 x.toModel.unpack y.toModel.unpack))
    = _
  obtain ⟨t, ht⟩ := (amounts_unpack hy).infinity_div (sign x)
  rw [unpack_of_infinite hx, ht]
  exact (has_infinity t).magnitude_eq

theorem magnitude_div_infinite (hx : isFinite x = true) (hy : magnitude y = 0x7F800000) :
    magnitude (x / y) = 0 := by
  show magnitude (ofUnpacked (UnpackedFloat.div Format.binary32 x.toModel.unpack y.toModel.unpack))
    = _
  obtain ⟨t, ht⟩ := (amounts_unpack hx).div_infinity (sign y)
  rw [unpack_of_infinite hy, ht]
  exact (has_zero t).magnitude_eq

end Single
end PatchSynth
