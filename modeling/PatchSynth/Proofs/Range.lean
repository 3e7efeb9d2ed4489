import PatchSynth.Proofs.Single.Arithmetic
import PatchSynth.Device.Fill

/-!
This module contains the arithmetic of ranges: the sums and products of samples stay within the sums
and products of their ranges, and a sample that is panned stays between zero and itself.
-/

namespace PatchSynth

open Single

namespace Range

variable {a b range : Range} {x y : Float32}

structure Bounded (range : Range) : Prop where
  finite_min : isFinite range.min = true
  finite_max : isFinite range.max = true
  le : range.min ≤ range.max

theorem contains_iff : range.contains x = true ↔ range.min ≤ x ∧ x ≤ range.max := by
  simp [contains]

theorem within_iff : a.within b = true ↔ b.min ≤ a.min ∧ a.max ≤ b.max := by
  simp [within]

theorem contains_min (h : range.min ≤ range.max) : range.contains range.min = true :=
  contains_iff.2 ⟨le_refl (le_iff.1 h).1, h⟩

theorem contains_max (h : range.min ≤ range.max) : range.contains range.max = true :=
  contains_iff.2 ⟨h, le_refl (le_iff.1 h).2.1⟩

theorem exists_contains_iff : (∃ x, range.contains x = true) ↔ range.min ≤ range.max := by
  constructor
  · rintro ⟨x, hx⟩
    rw [contains_iff] at hx
    exact le_trans hx.1 hx.2
  · intro h
    exact ⟨range.min, contains_min h⟩

theorem Bounded.isFinite_of_contains (h : range.Bounded) (hx : range.contains x = true) :
    isFinite x = true := by
  rw [contains_iff] at hx
  exact isFinite_of_le_of_le h.finite_min h.finite_max hx.1 hx.2

theorem Bounded.contains_min (h : range.Bounded) : range.contains range.min = true :=
  Range.contains_min h.le

theorem isOrdered_of_contains (h : range.contains x = true) :
    range.isOrdered = true ∧ isNaN range.min = false ∧ isNaN range.max = false := by
  have hle := exists_contains_iff.1 ⟨x, h⟩
  obtain ⟨hmin, hmax, -⟩ := le_iff.1 hle
  exact ⟨decide_eq_true hle, hmin, hmax⟩

theorem contains_of_within {outer : Range} (h : range.within outer = true)
    (hx : range.contains x = true) : outer.contains x = true := by
  rw [within_iff] at h
  rw [contains_iff] at hx ⊢
  exact ⟨le_trans h.1 hx.1, le_trans hx.2 h.2⟩

theorem within_of_contains (hle : a.min ≤ a.max)
    (h : ∀ x, a.contains x = true → b.contains x = true) : a.within b = true := by
  have hmin := contains_iff.1 (h a.min (contains_min hle))
  have hmax := contains_iff.1 (h a.max (contains_max hle))
  exact within_iff.2 ⟨hmin.1, hmax.2⟩

theorem contains_add (ha : a.Bounded) (hb : b.Bounded) (hx : a.contains x = true)
    (hy : b.contains y = true) : (a.add b).contains (x + y) = true := by
  have hfx := ha.isFinite_of_contains hx
  have hfy := hb.isFinite_of_contains hy
  rw [contains_iff] at *
  exact ⟨add_le_add ha.finite_min hfx hb.finite_min hfy hx.1 hy.1,
    add_le_add hfx ha.finite_max hfy hb.finite_max hx.2 hy.2⟩

theorem foldl_lesser_le {xs : List Float32} (hxs : ∀ x ∈ xs, isNaN x = false) {first : Float32}
    (hfirst : isNaN first = false) :
    xs.foldl lesser first ≤ first ∧ ∀ x ∈ xs, xs.foldl lesser first ≤ x := by
  induction xs generalizing first with
  | nil => exact ⟨le_refl hfirst, by simp⟩
  | cons x rest ih =>
    have hx := hxs x List.mem_cons_self
    obtain ⟨hnan, hrank⟩ := rank_lesser hfirst hx
    obtain ⟨hle, hrest⟩ := ih (fun y hy => hxs y (List.mem_cons_of_mem x hy)) hnan
    have hleft : lesser first x ≤ first := le_iff.2 ⟨hnan, hfirst, by omega⟩
    have hright : lesser first x ≤ x := le_iff.2 ⟨hnan, hx, by omega⟩
    refine ⟨le_trans hle hleft, ?_⟩
    intro y hy
    obtain rfl | hy := List.mem_cons.1 hy
    · exact le_trans hle hright
    · exact hrest y hy

theorem le_foldl_greater {xs : List Float32} (hxs : ∀ x ∈ xs, isNaN x = false) {first : Float32}
    (hfirst : isNaN first = false) :
    first ≤ xs.foldl greater first ∧ ∀ x ∈ xs, x ≤ xs.foldl greater first := by
  induction xs generalizing first with
  | nil => exact ⟨le_refl hfirst, by simp⟩
  | cons x rest ih =>
    have hx := hxs x List.mem_cons_self
    obtain ⟨hnan, hrank⟩ := rank_greater hfirst hx
    obtain ⟨hle, hrest⟩ := ih (fun y hy => hxs y (List.mem_cons_of_mem x hy)) hnan
    have hleft : first ≤ greater first x := le_iff.2 ⟨hfirst, hnan, by omega⟩
    have hright : x ≤ greater first x := le_iff.2 ⟨hx, hnan, by omega⟩
    refine ⟨le_trans hleft hle, ?_⟩
    intro y hy
    obtain rfl | hy := List.mem_cons.1 hy
    · exact le_trans hright hle
    · exact hrest y hy

theorem contains_mul (ha : a.Bounded) (hb : b.Bounded) (hx : a.contains x = true)
    (hy : b.contains y = true) : (a.mul b).contains (x * y) = true := by
  rw [contains_iff] at hx hy ⊢
  obtain ⟨⟨e, he, f, hf, hlow⟩, ⟨e', he', f', hf', hhigh⟩⟩ :=
    exists_corners_mul ha.finite_min ha.finite_max hb.finite_min hb.finite_max hx.1 hx.2 hy.1 hy.2
  have hmem : ∀ e ∈ [a.min, a.max], ∀ f ∈ [b.min, b.max],
      e * f ∈ [a.min * b.min, a.min * b.max, a.max * b.min, a.max * b.max] := by
    simp
  have hnan : ∀ corner ∈ [a.min * b.min, a.min * b.max, a.max * b.min, a.max * b.max],
      isNaN corner = false := by
    simp only [List.mem_cons, List.not_mem_nil, or_false, forall_eq_or_imp, forall_eq]
    exact ⟨(isNearest_mul ha.finite_min hb.finite_min).isNaN_eq,
      (isNearest_mul ha.finite_min hb.finite_max).isNaN_eq,
      (isNearest_mul ha.finite_max hb.finite_min).isNaN_eq,
      (isNearest_mul ha.finite_max hb.finite_max).isNaN_eq⟩
  have hhighest : isNaN infinity = false := by decide +kernel
  have hlowest : isNaN (-infinity) = false := by decide +kernel
  have hmin := (foldl_lesser_le hnan hhighest).2
  have hmax := (le_foldl_greater hnan hlowest).2
  exact ⟨le_trans (hmin _ (hmem e he f hf)) hlow, le_trans hhigh (hmax _ (hmem e' he' f' hf'))⟩

theorem bounded_unipolar : unipolar.Bounded := by
  constructor <;> decide +kernel

theorem bounded_bipolar : bipolar.Bounded := by
  constructor <;> decide +kernel

theorem bounded_axisRange (axis : Int) : (axisRange axis).Bounded := by
  unfold axisRange
  split
  next => exact bounded_unipolar
  next => exact bounded_bipolar

theorem contains_zero_axisRange (axis : Int) : (axisRange axis).contains 0 = true := by
  unfold axisRange
  split <;> decide +kernel

theorem clamp_of_isNaN (hx : isNaN x = true) : range.clamp x = x := by
  have hlow : ¬ x < range.min := by
    rw [lt_iff, hx]
    simp
  have hhigh : ¬ range.max < x := by
    rw [lt_iff, hx]
    simp
  rw [clamp, Single.clamp, if_neg hlow, if_neg hhigh]

theorem rank_clamp (hmin : isNaN range.min = false) (hmax : isNaN range.max = false)
    (hx : isNaN x = false) :
    isNaN (range.clamp x) = false ∧
      rank (range.clamp x) = Min.min (Max.max (rank x) (rank range.min)) (rank range.max) := by
  have hlow : ∃ y, (if x < range.min then range.min else x) = y ∧ isNaN y = false ∧
      rank y = Max.max (rank x) (rank range.min) := by
    refine ⟨_, rfl, ?_⟩
    split
    next hlt =>
      rw [lt_iff] at hlt
      exact ⟨hmin, by omega⟩
    next hle =>
      rw [not_lt_iff hx hmin, le_iff] at hle
      exact ⟨hx, by omega⟩
  obtain ⟨y, hy, hnan, hrank⟩ := hlow
  rw [clamp, Single.clamp, hy, ← hrank]
  split
  next hlt =>
    rw [lt_iff] at hlt
    exact ⟨hmax, by omega⟩
  next hle =>
    rw [not_lt_iff hmax hnan, le_iff] at hle
    exact ⟨hnan, by omega⟩

theorem isNaN_clamp (hmin : isNaN range.min = false) (hmax : isNaN range.max = false) :
    isNaN (range.clamp x) = isNaN x := by
  cases hx : isNaN x with
  | true =>
    rw [clamp_of_isNaN hx]
    exact hx
  | false => exact (rank_clamp hmin hmax hx).1

theorem clamp_le_clamp (hmin : isNaN range.min = false) (hmax : isNaN range.max = false)
    (h : x ≤ y) : range.clamp x ≤ range.clamp y := by
  obtain ⟨hx, hy, hle⟩ := le_iff.1 h
  have hrank := rank_clamp hmin hmax hx
  have hrank' := rank_clamp hmin hmax hy
  exact le_iff.2 ⟨hrank.1, hrank'.1, by omega⟩

theorem le_between (hx : isNaN x = false) (hy : isNaN y = false) :
    (between x y).min ≤ (between x y).max := by
  obtain ⟨hlesser, hmin⟩ := rank_lesser hx hy
  obtain ⟨hgreater, hmax⟩ := rank_greater hx hy
  exact le_iff.2 ⟨hlesser, hgreater, by simp only [between]; omega⟩

theorem isOrdered_between (hx : isNaN x = false) (hy : isNaN y = false) :
    (between x y).isOrdered = true :=
  decide_eq_true (le_between hx hy)

theorem bounded_between (hx : isFinite x = true) (hy : isFinite y = true) :
    (between x y).Bounded := by
  have hnan := isNaN_of_isFinite hx
  constructor
  · show isFinite (lesser x y) = true
    rw [lesser, hnan, if_neg (by decide)]
    split <;> assumption
  · show isFinite (greater x y) = true
    rw [greater, hnan, if_neg (by decide)]
    split <;> assumption
  · exact le_between hnan (isNaN_of_isFinite hy)

theorem Bounded.contains_clamp (h : range.Bounded) (hclamp : isNaN (range.clamp x) = false) :
    range.contains (range.clamp x) = true := by
  have hmin := isNaN_of_isFinite h.finite_min
  have hmax := isNaN_of_isFinite h.finite_max
  have hle := (le_iff.1 h.le).2.2
  have hrank := (rank_clamp hmin hmax ((isNaN_clamp hmin hmax).symm.trans hclamp)).2
  exact contains_iff.2
    ⟨le_iff.2 ⟨hmin, hclamp, by omega⟩, le_iff.2 ⟨hclamp, hmax, by omega⟩⟩

theorem contains_of_isNaN (hx : isNaN x = true) : range.contains x = false := by
  rw [← Bool.not_eq_true, contains_iff, le_iff, hx]
  simp

theorem contains_withZero (ha : a.Bounded) (hx : a.contains x = true) {gain : Float32}
    (hgain : unipolar.contains gain = true) : a.withZero.contains (x * gain) = true := by
  have hzero : isNaN (0 : Float32) = false ∧ rank (0 : Float32) = 0 := by decide +kernel
  have hmin := rank_lesser (isNaN_of_isFinite ha.finite_min) hzero.1
  have hmax := rank_greater (isNaN_of_isFinite ha.finite_max) hzero.1
  rw [show lesser a.min 0 = a.withZero.min from rfl, hzero.2] at hmin
  rw [show greater a.max 0 = a.withZero.max from rfl, hzero.2] at hmax
  have hle := (le_iff.1 ha.le).2.2
  rw [contains_iff] at hx hgain ⊢
  -- The products with zero and with one are zeros and the bounds themselves.
  have hcorner : ∀ e ∈ [a.min, a.max], ∀ f ∈ [unipolar.min, unipolar.max],
      isNaN (e * f) = false ∧ rank a.withZero.min ≤ rank (e * f) ∧
        rank (e * f) ≤ rank a.withZero.max := by
    have hends : ∀ e ∈ [a.min, a.max],
        isFinite e = true ∧ rank a.min ≤ rank e ∧ rank e ≤ rank a.max := by
      simp [ha.finite_min, ha.finite_max, hle]
    intro e he f hf
    obtain ⟨hfinite, hlow, hhigh⟩ := hends e he
    simp only [List.mem_cons, List.not_mem_nil, or_false] at hf
    obtain hf | hf := hf
    · obtain ⟨hnan, hrank⟩ := rank_mul_zero hfinite
      rw [show f = 0 from hf]
      exact ⟨hnan, by omega, by omega⟩
    · obtain ⟨hnan, hrank⟩ := rank_mul_one hfinite
      rw [show f = 1 from hf]
      exact ⟨hnan, by omega, by omega⟩
  obtain ⟨⟨e, he, f, hf, hlow⟩, ⟨e', he', f', hf', hhigh⟩⟩ :=
    exists_corners_mul ha.finite_min ha.finite_max bounded_unipolar.finite_min
      bounded_unipolar.finite_max hx.1 hx.2 hgain.1 hgain.2
  obtain ⟨hnan, hbelow, -⟩ := hcorner e he f hf
  obtain ⟨hnan', -, habove⟩ := hcorner e' he' f' hf'
  exact ⟨le_trans (le_iff.2 ⟨hmin.1, hnan, hbelow⟩) hlow,
    le_trans hhigh (le_iff.2 ⟨hnan', hmax.1, habove⟩)⟩

theorem contains_half (hlow : 0 ≤ x) (hhigh : x ≤ 2) : unipolar.contains (x * 0.5) = true := by
  have htwo : ({ min := 0, max := 2 } : Range).Bounded := by
    constructor <;> decide +kernel
  have hhalf : (point 0.5).Bounded := by
    constructor <;> decide +kernel
  have hproduct := contains_mul htwo hhalf (contains_iff.2 ⟨hlow, hhigh⟩) hhalf.contains_min
  have hmin : (Range.mul { min := 0, max := 2 } (point 0.5)).min = unipolar.min := by
    decide +kernel
  have hmax : (Range.mul { min := 0, max := 2 } (point 0.5)).max = unipolar.max := by
    decide +kernel
  rw [contains_iff, hmin, hmax] at hproduct
  exact contains_iff.2 hproduct

theorem contains_panSample (ha : a.Bounded) (hx : a.contains x = true) {position : Float32}
    (hposition : bipolar.contains position = true) :
    a.withZero.contains (Device.panSample x position).1 = true ∧
      a.withZero.contains (Device.panSample x position).2 = true := by
  have hone : isFinite (1 : Float32) = true := by decide +kernel
  have hfinite := bounded_bipolar.isFinite_of_contains hposition
  rw [contains_iff] at hposition
  constructor
  · have hlow := sub_le_sub_left hone hfinite bounded_bipolar.finite_max hposition.2
    have hhigh := sub_le_sub_left hone bounded_bipolar.finite_min hfinite hposition.1
    have hends : 1 - bipolar.max = 0 ∧ 1 - bipolar.min = 2 := by decide +kernel
    rw [hends.1] at hlow
    rw [hends.2] at hhigh
    exact contains_withZero ha hx (contains_half hlow hhigh)
  · have hself := le_refl (isNaN_of_isFinite hone)
    have hlow := add_le_add hone hone bounded_bipolar.finite_min hfinite hself hposition.1
    have hhigh := add_le_add hone hone hfinite bounded_bipolar.finite_max hself hposition.2
    have hends : 1 + bipolar.min = 0 ∧ 1 + bipolar.max = 2 := by decide +kernel
    rw [hends.1] at hlow
    rw [hends.2] at hhigh
    exact contains_withZero ha hx (contains_half hlow hhigh)

end Range
end PatchSynth
