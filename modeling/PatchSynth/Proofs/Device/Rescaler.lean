import PatchSynth.Proofs.Range
import PatchSynth.Proofs.Signal.Block
import PatchSynth.Proofs.Single.Quotient
import PatchSynth.Proofs.Single.Special

/-!
This module contains the arithmetic of a rescaler: a difference, a product with the slope, a sum and
a move into the range between the limits. All four steps are rounded and keep the order
(`Scales.le`). What comes out lies between the limits unless it is NaN, and it is NaN exactly if the
slope or a difference is too large for single precision (`Rescales.isNaN_eq_overflows`).
-/

namespace PatchSynth

open Single

namespace Device

variable {low high x y : Float32} {source : Range}

def slope (low high : Float32) (source : Range) : Float32 :=
  let span := source.max - source.min
  if 0 < span then (high - low) / span else 0

theorem rescaleSample_eq (low high : Float32) (source : Range) (x : Float32) :
    rescaleSample low high source x
      = (Range.between low high).clamp (low + (x - source.min) * slope low high source) := rfl

structure Rescales (low high : Float32) (source : Range) : Prop where
  finite_low : isFinite low = true
  finite_high : isFinite high = true
  bounded : source.Bounded

structure Scales (low high : Float32) (source : Range) : Prop extends
    Rescales low high source where
  lt : source.min < source.max
  finite_span : isFinite (source.max - source.min) = true
  finite_reach : isFinite (high - low) = true
  finite_slope : isFinite ((high - low) / (source.max - source.min)) = true

/--
Whether a sample is rescaled to NaN. If the distance of the bounds is finite, it is too small for the
distance of the limits, and the sample is the lower bound. If it is not, the distance of the limits
or that of the sample from the lower bound is infinite as well.
-/
def overflows (low high : Float32) (source : Range) (x : Float32) : Bool :=
  let span := source.max - source.min
  let reach := high - low
  if isFinite span then
    0 < span && !isFinite (reach / span) && x ≤ source.min
  else
    !isFinite reach || !isFinite (x - source.min)

theorem zero_lt_iff (hx : isNaN x = false) : 0 < x ↔ 0 < rank x := by
  have hzero : isNaN (0 : Float32) = false ∧ rank (0 : Float32) = 0 := by decide +kernel
  rw [lt_iff, hzero.2]
  simp [hzero.1, hx]

namespace Rescales

theorem distance (h : Rescales low high source) (hx : source.contains x = true) :
    isNaN (x - source.min) = false ∧ 0 ≤ rank (x - source.min) ∧
      rank (x - source.min) ≤ rank (source.max - source.min) ∧
      (rank (x - source.min) = 0 ↔ x ≤ source.min) := by
  have hfinite := h.bounded.isFinite_of_contains hx
  obtain ⟨hlow, hhigh⟩ := Range.contains_iff.1 hx
  obtain ⟨hmin, hnumber, hle⟩ := le_iff.1 hlow
  obtain ⟨hnan, hpos, hneg⟩ := rank_sub hfinite h.bounded.finite_min
  have hmax := sub_le_sub_right hfinite h.bounded.finite_max h.bounded.finite_min hhigh
  refine ⟨hnan, by omega, (le_iff.1 hmax).2.2, ?_⟩
  rw [le_iff]
  simp only [hmin, hnumber, true_and]
  omega

theorem number_span (h : Rescales low high source) :
    isNaN (source.max - source.min) = false ∧ 0 ≤ rank (source.max - source.min) ∧
      (0 < rank (source.max - source.min) ↔ rank source.min < rank source.max) := by
  obtain ⟨hnan, hpos, hneg⟩ := rank_sub h.bounded.finite_max h.bounded.finite_min
  have hle := (le_iff.1 h.bounded.le).2.2
  exact ⟨hnan, by omega, hpos⟩

theorem finite_distance (h : Rescales low high source)
    (hspan : isFinite (source.max - source.min) = true) (hx : source.contains x = true) :
    isFinite (x - source.min) = true := by
  obtain ⟨hnan, hnonneg, hle, -⟩ := h.distance hx
  have hend := rank_of_isFinite hspan
  cases hfinite : isFinite (x - source.min) with
  | true => rfl
  | false =>
    have := rank_of_infinite (magnitude_of_not_finite hnan hfinite)
    omega

theorem isNaN_rescaleSample (h : Rescales low high source) :
    isNaN (rescaleSample low high source x)
      = isNaN ((x - source.min) * slope low high source) := by
  have hbounded := Range.bounded_between h.finite_low h.finite_high
  rw [rescaleSample_eq, Range.isNaN_clamp (isNaN_of_isFinite hbounded.finite_min)
    (isNaN_of_isFinite hbounded.finite_max), isNaN_add h.finite_low]

theorem contains (h : Rescales low high source)
    (hnumber : isNaN (rescaleSample low high source x) = false) :
    (Range.between low high).contains (rescaleSample low high source x) = true :=
  (Range.bounded_between h.finite_low h.finite_high).contains_clamp hnumber

theorem isNaN_of_finite_span (h : Rescales low high source)
    (hspan : isFinite (source.max - source.min) = true) (hx : source.contains x = true) :
    isNaN ((x - source.min) * slope low high source)
      = (decide (0 < source.max - source.min)
        && !isFinite ((high - low) / (source.max - source.min)) && decide (x ≤ source.min)) := by
  obtain ⟨hnan, -, -, hzero⟩ := h.distance hx
  have hdistance := h.finite_distance hspan hx
  unfold slope
  dsimp only
  by_cases hpos : 0 < source.max - source.min
  · rw [if_pos hpos, decide_eq_true hpos, Bool.true_and]
    cases hslope : isFinite ((high - low) / (source.max - source.min)) with
    | true => exact (isNearest_mul hdistance hslope).isNaN_eq
    | false =>
      have hunits : inUnits (source.max - source.min) ≠ 0 := by
        rw [zero_lt_iff (isNaN_of_isFinite hspan)] at hpos
        have hnone : isFinite (0 : Float32) = true ∧ rank (0 : Float32) = 0 ∧
            inUnits (0 : Float32) = 0 := by decide +kernel
        have := (inUnits_lt_iff hnone.1 hspan).2 (by omega)
        omega
      have hinfinite : magnitude ((high - low) / (source.max - source.min)) = 0x7F800000 := by
        cases hreach : isFinite (high - low) with
        | true =>
          exact magnitude_of_not_finite (isNearest_div hreach hspan hunits).isNaN_eq hslope
        | false =>
          have hnumber := (isNearest_sub h.finite_high h.finite_low).isNaN_eq
          exact magnitude_infinite_div (magnitude_of_not_finite hnumber hreach) hspan
      rw [Bool.not_false, Bool.true_and, Bool.eq_iff_iff, decide_eq_true_iff, ← hzero,
        isNaN_mul hnan (isNaN_of_infinite hinfinite), rank_eq_zero_iff]
      omega
  · rw [if_neg hpos, decide_eq_false hpos, Bool.false_and, Bool.false_and]
    exact (isNearest_mul hdistance (by decide +kernel)).isNaN_eq

theorem isNaN_of_infinite_span (h : Rescales low high source)
    (hspan : isFinite (source.max - source.min) = false) (hx : source.contains x = true) :
    isNaN ((x - source.min) * slope low high source)
      = (!isFinite (high - low) || !isFinite (x - source.min)) := by
  obtain ⟨hnan, -, -, -⟩ := h.distance hx
  obtain ⟨hnumber, hnonneg, -⟩ := h.number_span
  have hinfinite := magnitude_of_not_finite hnumber hspan
  have hpos : 0 < source.max - source.min := by
    have := rank_of_infinite hinfinite
    rw [zero_lt_iff hnumber]
    omega
  unfold slope
  dsimp only
  rw [if_pos hpos]
  cases hreach : isFinite (high - low) with
  | true =>
    have hslope := magnitude_div_infinite hreach hinfinite
    have hnumber := isNaN_eq_false_iff.2 (Nat.le_trans (Nat.le_of_eq hslope) (by decide))
    rw [Bool.not_true, Bool.false_or, Bool.eq_iff_iff, isNaN_mul hnan hnumber, hslope]
    cases hfinite : isFinite (x - source.min) with
    | true =>
      rw [isFinite_iff] at hfinite
      simp
      omega
    | false => simp [magnitude_of_not_finite hnan hfinite]
  | false =>
    have hnumber := (isNearest_sub h.finite_high h.finite_low).isNaN_eq
    exact mul_of_isNaN _ (div_infinite (magnitude_of_not_finite hnumber hreach) hinfinite)

theorem isNaN_eq_overflows (h : Rescales low high source) (hx : source.contains x = true) :
    isNaN (rescaleSample low high source x) = overflows low high source x := by
  rw [h.isNaN_rescaleSample]
  unfold overflows
  dsimp only
  split
  next hspan => exact h.isNaN_of_finite_span hspan hx
  next hspan =>
    rw [Bool.not_eq_true] at hspan
    exact h.isNaN_of_infinite_span hspan hx

theorem beq_low (h : Rescales low high source) (hdistance : isFinite (x - source.min) = true)
    (hslope : isFinite (slope low high source) = true)
    (hzero : rank (x - source.min) = 0 ∨ rank (slope low high source) = 0) :
    (rescaleSample low high source x == low) = true := by
  have hproduct : IsNearest ((x - source.min) * slope low high source) 0 (2 ^ 149) := by
    have hunits : inUnits (x - source.min) * inUnits (slope low high source) = 0 :=
      Int.mul_eq_zero.2 (hzero.imp inUnits_eq_zero inUnits_eq_zero)
    rw [← hunits]
    exact isNearest_mul hdistance hslope
  have hnone : rank ((x - source.min) * slope low high source) = 0 := by
    rw [hproduct.rank_eq]
    simp [nearestRank, nearest_zero]
  have hfinite : isFinite ((x - source.min) * slope low high source) = true := by
    rw [isFinite_iff, rank_eq_zero_iff.1 hnone]
    decide
  have hsum := isNearest_add h.finite_low hfinite
  rw [inUnits_eq_zero hnone, Int.add_zero] at hsum
  have hrank := hsum.rank_eq
  rw [nearestRank_inUnits h.finite_low] at hrank
  -- The limit itself is between the limits and is not moved.
  have hlow := isNaN_of_isFinite h.finite_low
  have hhigh := isNaN_of_isFinite h.finite_high
  obtain ⟨hmin, hlesser⟩ := rank_lesser hlow hhigh
  obtain ⟨hmax, hgreater⟩ := rank_greater hlow hhigh
  obtain ⟨hnumber, hclamp⟩ := @Range.rank_clamp (Range.between low high) _ hmin hmax hsum.isNaN_eq
  rw [rescaleSample_eq, beq_iff_rank hnumber hlow, hclamp, hrank]
  simp only [Range.between]
  omega

theorem beq_low_of_le (h : Rescales low high source) (hle : source.max ≤ source.min)
    (hdistance : isFinite (x - source.min) = true) :
    (rescaleSample low high source x == low) = true := by
  obtain ⟨hnumber, -, hspan⟩ := h.number_span
  have hnone : slope low high source = 0 := by
    refine if_neg ?_
    have hmax := (le_iff.1 hle).2.2
    rw [zero_lt_iff hnumber]
    omega
  refine h.beq_low hdistance ?_ (Or.inr ?_)
  · rw [hnone]
    decide +kernel
  · rw [hnone]
    decide +kernel

end Rescales

namespace Scales

theorem zero_lt_span (h : Scales low high source) : 0 < source.max - source.min := by
  obtain ⟨hnumber, -, hspan⟩ := h.number_span
  rw [zero_lt_iff hnumber, hspan]
  exact (lt_iff.1 h.lt).2.2

theorem slope_eq (h : Scales low high source) :
    slope low high source = (high - low) / (source.max - source.min) :=
  if_pos h.zero_lt_span

theorem isNearest_slope (h : Scales low high source) :
    IsNearest (slope low high source) (inUnits (high - low) * (2 ^ 149 : Nat))
      (inUnits (source.max - source.min)).natAbs := by
  have hpos := h.zero_lt_span
  have hzero : isFinite (0 : Float32) = true ∧ rank (0 : Float32) = 0 ∧
      inUnits (0 : Float32) = 0 := by decide +kernel
  rw [zero_lt_iff h.number_span.1] at hpos
  have hunits : 0 < inUnits (source.max - source.min) := by
    rw [← hzero.2.2]
    exact (inUnits_lt_iff hzero.1 h.finite_span).2 (by omega)
  have hslope := isNearest_div h.finite_reach h.finite_span (by omega)
  rw [Int.sign_eq_one_of_pos hunits, Int.mul_one, ← h.slope_eq] at hslope
  exact hslope

theorem slope_nonneg (h : Scales low high source) (hle : low ≤ high) :
    0 ≤ inUnits (slope low high source) := by
  obtain ⟨-, -, hneg⟩ := rank_sub h.finite_high h.finite_low
  have hrank := (le_iff.1 hle).2.2
  have hreach : 0 ≤ inUnits (high - low) := inUnits_nonneg (by omega)
  apply inUnits_nonneg
  rw [h.isNearest_slope.rank_eq]
  exact nearestRank_nonneg (Int.mul_nonneg hreach (Int.natCast_nonneg _)) _

theorem slope_nonpos (h : Scales low high source) (hle : high ≤ low) :
    inUnits (slope low high source) ≤ 0 := by
  obtain ⟨-, hpos, -⟩ := rank_sub h.finite_high h.finite_low
  have hrank := (le_iff.1 hle).2.2
  have hreach : inUnits (high - low) ≤ 0 := inUnits_nonpos (by omega)
  apply inUnits_nonpos
  rw [h.isNearest_slope.rank_eq]
  exact nearestRank_nonpos (Int.mul_nonpos_of_nonpos_of_nonneg hreach (Int.natCast_nonneg _)) _

theorem le_of_products (h : Scales low high source)
    (hle : (x - source.min) * slope low high source ≤ (y - source.min) * slope low high source) :
    rescaleSample low high source x ≤ rescaleSample low high source y := by
  have hbounded := Range.bounded_between h.finite_low h.finite_high
  rw [rescaleSample_eq, rescaleSample_eq]
  exact Range.clamp_le_clamp (isNaN_of_isFinite hbounded.finite_min)
    (isNaN_of_isFinite hbounded.finite_max) (Single.add_le_add_left h.finite_low hle)

theorem le (h : Scales low high source) (hx : source.contains x = true)
    (hy : source.contains y = true) (hxy : x ≤ y) :
    (low ≤ high → rescaleSample low high source x ≤ rescaleSample low high source y) ∧
      (high ≤ low → rescaleSample low high source y ≤ rescaleSample low high source x) := by
  have hslope : isFinite (slope low high source) = true := by
    rw [h.slope_eq]
    exact h.finite_slope
  have hproduct := isNearest_mul (h.finite_distance h.finite_span hx) hslope
  have hproduct' := isNearest_mul (h.finite_distance h.finite_span hy) hslope
  have hmin := h.bounded.finite_min
  have hdistance : inUnits (x - source.min) ≤ inUnits (y - source.min) :=
    inUnits_le_of_le (sub_le_sub_right (h.bounded.isFinite_of_contains hx)
      (h.bounded.isFinite_of_contains hy) hmin hxy)
  constructor
  · intro hle
    exact h.le_of_products (hproduct.le hproduct' (by decide)
      (Int.mul_le_mul_of_nonneg_right hdistance (h.slope_nonneg hle)))
  · intro hle
    exact h.le_of_products (hproduct'.le hproduct (by decide)
      (Int.mul_le_mul_of_nonpos_right hdistance (h.slope_nonpos hle)))

end Scales

theorem fill_rescaler {feed : Feed} (h : Rescales low high feed.range) (request : Request)
    (phase : Float32) :
    (Device.rescaler feed low high).fill request phase
      = .ok { samples := (feed.block.extract 0 request.frames).map
                (rescaleSample low high feed.range)
              phase } := by
  have hordered : (Range.between low high).isOrdered = true :=
    Range.isOrdered_between (isNaN_of_isFinite h.finite_low) (isNaN_of_isFinite h.finite_high)
  have hrescale : rescale low high feed.range (feed.block.extract 0 request.frames)
      = .ok ((feed.block.extract 0 request.frames).map (rescaleSample low high feed.range)) := by
    unfold rescale
    dsimp only
    rw [if_pos hordered]
    split
    next hempty => rw [Array.isEmpty_iff.1 hempty, Array.map_empty]
    next => rfl
  simp only [fill, hrescale, bind, Except.bind, pure, Except.pure]

/--
Rescaling keeps the order of the samples or turns it around, like the limits are, and the lower bound
goes to the first limit. All samples go there if the two bounds are one.
-/
theorem rescaler_keeps_order {feed : Feed} (h : Rescales low high feed.range) (request : Request)
    (phase : Float32) :
    (Device.rescaler feed low high).fill request phase
        = .ok { samples := (feed.block.extract 0 request.frames).map
                  (rescaleSample low high feed.range)
                phase } ∧
      (Scales low high feed.range →
        ∀ x y, feed.range.contains x = true → feed.range.contains y = true → x ≤ y →
          (low ≤ high →
            rescaleSample low high feed.range x ≤ rescaleSample low high feed.range y) ∧
          (high ≤ low →
            rescaleSample low high feed.range y ≤ rescaleSample low high feed.range x)) ∧
      (Scales low high feed.range → ∀ x, feed.range.contains x = true → x ≤ feed.range.min →
        (rescaleSample low high feed.range x == low) = true) ∧
      (feed.range.max ≤ feed.range.min →
        ∀ x, feed.range.contains x = true ∨ isFinite (x - feed.range.min) = true →
          (rescaleSample low high feed.range x == low) = true) := by
  refine ⟨fill_rescaler h request phase, ?_, ?_, ?_⟩
  · intro hscales x y hx hy hxy
    exact hscales.le hx hy hxy
  · intro hscales x hx hmin
    obtain ⟨-, -, -, hzero⟩ := h.distance hx
    refine h.beq_low (h.finite_distance hscales.finite_span hx) ?_ (Or.inl (hzero.2 hmin))
    rw [hscales.slope_eq]
    exact hscales.finite_slope
  · intro hle x hx
    obtain hx | hdistance := hx
    · obtain ⟨hnan, -, -, hzero⟩ := h.distance hx
      have hnone := hzero.2 (le_trans (Range.contains_iff.1 hx).2 hle)
      refine h.beq_low_of_le hle ?_
      rw [isFinite_iff, rank_eq_zero_iff.1 hnone]
      decide
    · exact h.beq_low_of_le hle hdistance

def risingFeed : Feed :=
  { range := Range.bipolar, block := #[-1, 0.5] }

theorem scales_octave : Scales 200 400 risingFeed.range := by
  constructor
  · constructor
    · decide +kernel
    · decide +kernel
    · exact Range.bounded_bipolar
  all_goals decide +kernel

theorem rescaler_keeps_order_octave :
    Rescales 200 400 risingFeed.range ∧ Scales 200 400 risingFeed.range ∧
      (Device.rescaler risingFeed 200 400).fill { timestamp := 0, frames := 2, controls := {} } 0
        = .ok { samples := (risingFeed.block.extract 0 2).map
                  (rescaleSample 200 400 Range.bipolar)
                phase := 0 } ∧
      rescaleSample 200 400 Range.bipolar (-1) ≤ rescaleSample 200 400 Range.bipolar 0.5 ∧
      (rescaleSample 200 400 Range.bipolar (-1) == 200) = true := by
  obtain ⟨hfill, hle, hlow, -⟩ := rescaler_keeps_order scales_octave.toRescales
    { timestamp := 0, frames := 2, controls := {} } 0
  refine ⟨scales_octave.toRescales, scales_octave, hfill, ?_, ?_⟩
  · have hordered := hle scales_octave (-1) 0.5 (by decide +kernel) (by decide +kernel)
      (by decide +kernel)
    exact hordered.1 (by decide +kernel)
  · exact hlow scales_octave (-1) (by decide +kernel) (by decide +kernel)

end Device
end PatchSynth
