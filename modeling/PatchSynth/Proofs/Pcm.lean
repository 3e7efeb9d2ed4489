import PatchSynth.Pcm
import PatchSynth.Proofs.Single.Product

/-!
This module contains what the conversion to 16-bit PCM does to the order of samples. It rounds the
product of a sample and the scale toward zero and stops at the ends of the 16-bit range, each of
which keeps the order. A product that is NaN counts as zero, where it comes between the others.
-/

namespace PatchSynth

namespace Single

variable {x y : Float32} {lo hi : Int}

def truncated (x : Float32) : Int :=
  (inUnits x).tdiv (2 ^ 149)

theorem toIntSaturating_of_isNaN (lo hi : Int) (h : isNaN x = true) :
    toIntSaturating lo hi x = 0 := by
  rw [toIntSaturating, if_pos h]

theorem toIntSaturating_eq (lo hi : Int) (h : isNaN x = false) :
    toIntSaturating lo hi x = max lo (min hi (truncated x)) := by
  have hwhole : wholeMagnitude x = units x / 2 ^ 149 := by
    rw [wholeMagnitude, Nat.shiftLeft_eq, Nat.shiftRight_eq_div_pow]
    rfl
  have htruncated : truncated x = (sign x).apply (wholeMagnitude x) := by
    rw [truncated, inUnits, hwhole]
    cases sign x with
    | negative =>
      rw [apply_negative, apply_negative, Int.neg_tdiv, Int.ofNat_tdiv]
      rfl
    | positive =>
      rw [apply_positive, apply_positive, Int.ofNat_tdiv]
      rfl
  rw [toIntSaturating, h, if_neg (by decide), htruncated, sign]
  cases isNegative x <;> rfl

theorem truncated_mono (h : rank x ≤ rank y) : truncated x ≤ truncated y :=
  Int.tdiv_le_tdiv (by decide) (inUnits_le h)

theorem toIntSaturating_mono (lo hi : Int) (hx : isNaN x = false) (hy : isNaN y = false)
    (h : rank x ≤ rank y) : toIntSaturating lo hi x ≤ toIntSaturating lo hi y := by
  have hmono := truncated_mono h
  rw [toIntSaturating_eq lo hi hx, toIntSaturating_eq lo hi hy]
  omega

theorem toIntSaturating_nonneg (hhi : 0 ≤ hi) (hx : isNaN x = false) (h : 0 ≤ rank x) :
    0 ≤ toIntSaturating lo hi x := by
  have hwhole : 0 ≤ truncated x := Int.tdiv_nonneg (inUnits_nonneg h) (by decide)
  rw [toIntSaturating_eq lo hi hx]
  omega

theorem toIntSaturating_nonpos (hlo : lo ≤ 0) (hx : isNaN x = false) (h : rank x ≤ 0) :
    toIntSaturating lo hi x ≤ 0 := by
  have hzero : rank (0 : Float32) = 0 ∧ truncated 0 = 0 := by decide +kernel
  have hwhole : truncated x ≤ truncated 0 := truncated_mono (by omega)
  rw [toIntSaturating_eq lo hi hx]
  omega

theorem toIntSaturating_mul_mono {x y z : Float32} (hlo : lo ≤ 0) (hhi : 0 ≤ hi)
    (hx : isNaN x = false) (hy : isNaN y = false) (hz : isNaN z = false) (h : rank x ≤ rank y) :
    (0 ≤ rank z → toIntSaturating lo hi (x * z) ≤ toIntSaturating lo hi (y * z)) ∧
      (rank z ≤ 0 → toIntSaturating lo hi (y * z) ≤ toIntSaturating lo hi (x * z)) := by
  cases hxz : isNaN (x * z) with
  | false =>
    cases hyz : isNaN (y * z) with
    | false =>
      obtain ⟨hnonneg, hnonpos⟩ := rank_mul_mono hx hy hz h hxz hyz
      exact ⟨fun hsign => toIntSaturating_mono lo hi hxz hyz (hnonneg hsign),
        fun hsign => toIntSaturating_mono lo hi hyz hxz (hnonpos hsign)⟩
    | true =>
      have hzero := rank_of_isNaN_mul hy hz hyz
      obtain ⟨hnonneg, hnonpos⟩ := rank_mul_sign hx hz hxz
      rw [toIntSaturating_of_isNaN lo hi hyz]
      constructor
      · intro hsign
        apply toIntSaturating_nonpos hlo hxz
        apply hnonpos
        omega
      · intro hsign
        apply toIntSaturating_nonneg hhi hxz
        apply hnonneg
        omega
  | true =>
    have hzero := rank_of_isNaN_mul hx hz hxz
    rw [toIntSaturating_of_isNaN lo hi hxz]
    cases hyz : isNaN (y * z) with
    | false =>
      obtain ⟨hnonneg, hnonpos⟩ := rank_mul_sign hy hz hyz
      constructor
      · intro hsign
        apply toIntSaturating_nonneg hhi hyz
        apply hnonneg
        omega
      · intro hsign
        apply toIntSaturating_nonpos hlo hyz
        apply hnonpos
        omega
    | true =>
      rw [toIntSaturating_of_isNaN lo hi hyz]
      exact ⟨fun _ => Int.le_refl 0, fun _ => Int.le_refl 0⟩

end Single

namespace Pcm

open Single

variable {scaler sample x y : Float32}

theorem toInt_ofSample (scaler sample : Float32) :
    (ofSample scaler sample).toInt = toIntSaturating (-32768) 32767 (sample * scaler) := by
  have hbounds : -32768 ≤ toIntSaturating (-32768) 32767 (sample * scaler) ∧
      toIntSaturating (-32768) 32767 (sample * scaler) ≤ 32767 := by
    unfold toIntSaturating
    dsimp only
    split <;> omega
  apply Int16.toInt_ofInt_of_le <;> omega

/--
The product of a sample and a scale truncated toward zero, or the end of the 16-bit range that it is
beyond. NaN counts as zero.
-/
def scaled (scaler sample : Float32) : Int :=
  if isNaN (sample * scaler) then 0
  else max (-32768) (min 32767 (truncated (sample * scaler)))

theorem toInt_ofSample_eq (scaler sample : Float32) :
    (ofSample scaler sample).toInt = scaled scaler sample := by
  rw [toInt_ofSample, scaled]
  split
  next hnan => exact toIntSaturating_of_isNaN _ _ hnan
  next hnan => exact toIntSaturating_eq _ _ (Bool.not_eq_true _ ▸ hnan)

theorem truncated_mul_playbackScaler (hlow : -1 ≤ sample) (hhigh : sample ≤ 1) :
    isNaN (sample * playbackScaler) = false ∧
      -32767 ≤ truncated (sample * playbackScaler) ∧
      truncated (sample * playbackScaler) ≤ 32767 := by
  have hends : truncated (-1 * playbackScaler) = -32767 ∧
      truncated (1 * playbackScaler) = 32767 := by decide +kernel
  have hfinite : isFinite sample = true :=
    isFinite_of_le_of_le (by decide +kernel) (by decide +kernel) hlow hhigh
  have hscaler : isFinite playbackScaler = true ∧ 0 ≤ rank playbackScaler := by decide +kernel
  have hnan : isNaN (sample * playbackScaler) = false :=
    (isNearest_mul hfinite hscaler.1).isNaN_eq
  rw [le_iff] at hlow hhigh
  have hnanScaler := isNaN_of_isFinite hscaler.1
  obtain ⟨hfrom, -⟩ := rank_mul_mono hlow.1 hlow.2.1 hnanScaler hlow.2.2 (by decide +kernel) hnan
  obtain ⟨hto, -⟩ := rank_mul_mono hhigh.1 hhigh.2.1 hnanScaler hhigh.2.2 hnan (by decide +kernel)
  have hmono := truncated_mono (hfrom hscaler.2)
  have hmono' := truncated_mono (hto hscaler.2)
  exact ⟨hnan, by omega, by omega⟩

/--
Conversion to PCM keeps the order of samples, or reverses it at a negative scale. It gives the
product with the scale, truncated toward zero and saturated, and zero for a product that is NaN. At
the scale of playback, samples in the range of audio signals are not saturated.
-/
theorem ofSample_mono :
    (∀ {scaler x y : Float32}, 0 ≤ scaler → x ≤ y → ofSample scaler x ≤ ofSample scaler y) ∧
    (∀ {scaler x y : Float32}, scaler ≤ 0 → x ≤ y → ofSample scaler y ≤ ofSample scaler x) ∧
    (∀ scaler sample : Float32,
      (isFinite sample = true → isFinite scaler = true →
        IsNearest (sample * scaler) (inUnits sample * inUnits scaler) (2 ^ 149)) ∧
      (ofSample scaler sample).toInt
        = if isNaN (sample * scaler) then 0
          else max (-32768) (min 32767 (truncated (sample * scaler)))) ∧
    ∀ sample : Float32, -1 ≤ sample → sample ≤ 1 →
      isNaN (sample * playbackScaler) = false ∧
        (ofSample playbackScaler sample).toInt = truncated (sample * playbackScaler) ∧
        -32767 ≤ (ofSample playbackScaler sample).toInt ∧
        (ofSample playbackScaler sample).toInt ≤ 32767 := by
  have hzero : rank (0 : Float32) = 0 := by decide +kernel
  refine ⟨?_, ?_, ?_, ?_⟩
  · intro scaler x y hscaler h
    rw [le_iff] at hscaler h
    rw [Int16.le_iff_toInt_le, toInt_ofSample, toInt_ofSample]
    apply (toIntSaturating_mul_mono (by decide) (by decide) h.1 h.2.1 hscaler.2.1 h.2.2).1
    omega
  · intro scaler x y hscaler h
    rw [le_iff] at hscaler h
    rw [Int16.le_iff_toInt_le, toInt_ofSample, toInt_ofSample]
    apply (toIntSaturating_mul_mono (by decide) (by decide) h.1 h.2.1 hscaler.1 h.2.2).2
    omega
  · intro scaler sample
    exact ⟨isNearest_mul, toInt_ofSample_eq scaler sample⟩
  · intro sample hlow hhigh
    obtain ⟨hnan, hfrom, hto⟩ := truncated_mul_playbackScaler hlow hhigh
    have hwhole : (ofSample playbackScaler sample).toInt = truncated (sample * playbackScaler) := by
      rw [toInt_ofSample, toIntSaturating_eq _ _ hnan]
      omega
    rw [hwhole]
    exact ⟨hnan, rfl, hfrom, hto⟩

theorem ofSample_mono_infinite :
    ((0 : Float32) ≤ infinity ∧ (-1 : Float32) ≤ 0 ∧
      ofSample infinity (-1) ≤ ofSample infinity 0) ∧
    (-infinity ≤ (0 : Float32) ∧ (-1 : Float32) ≤ 0 ∧
      ofSample (-infinity) 0 ≤ ofSample (-infinity) (-1)) ∧
    (isFinite (-1) = true ∧ isFinite playbackScaler = true ∧
      IsNearest (-1 * playbackScaler) (inUnits (-1) * inUnits playbackScaler) (2 ^ 149)) ∧
    (-1 : Float32) ≤ -1 ∧ (-1 : Float32) ≤ 1 ∧
      -32767 ≤ (ofSample playbackScaler (-1)).toInt ∧
      (ofSample playbackScaler (-1)).toInt ≤ 32767 := by
  obtain ⟨hnonneg, hnonpos, hproduct, hplayback⟩ := ofSample_mono
  have hinfinity : (0 : Float32) ≤ infinity ∧ -infinity ≤ (0 : Float32) := by decide +kernel
  have hsamples : (-1 : Float32) ≤ 0 ∧ (-1 : Float32) ≤ -1 ∧ (-1 : Float32) ≤ 1 := by
    decide +kernel
  have hfinite : isFinite (-1) = true ∧ isFinite playbackScaler = true := by decide +kernel
  obtain ⟨hlow, hsame, hhigh⟩ := hsamples
  obtain ⟨-, -, hbounds⟩ := hplayback (-1) hsame hhigh
  exact ⟨⟨hinfinity.1, hlow, hnonneg hinfinity.1 hlow⟩,
    ⟨hinfinity.2, hlow, hnonpos hinfinity.2 hlow⟩,
    ⟨hfinite.1, hfinite.2, (hproduct playbackScaler (-1)).1 hfinite.1 hfinite.2⟩,
    hsame, hhigh, hbounds⟩

end Pcm
end PatchSynth
