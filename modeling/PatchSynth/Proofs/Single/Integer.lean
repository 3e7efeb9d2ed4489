import PatchSynth.Proofs.Single.Arithmetic

/-!
This module contains the natural numbers that single-precision numbers can hold. The number nearest
to one of them stands for it if it has no more than 24 significant bits, and for a neighbour if not.
-/

namespace PatchSynth
namespace Single

open Float.Model Float.Model.UnpackedFloat

variable {x : Float32} {num den n : Nat}

theorem toBits_ofBits {bits : UInt32} (h : bits.toNat ≤ 0x7F800000) :
    (Float32.ofBits bits).toBits = bits := by
  have hnumber : @isNaNBits Format.binary32 bits.toBitVec = false := by
    have hbits : bits.toBitVec.toNat = bits.toNat := rfl
    have hexponent := toNat_unpackExponent bits.toBitVec
    have hmantissa := toNat_unpackMantissa bits.toBitVec
    rw [isNaNBits, decide_eq_false_iff_not]
    rintro ⟨hfull, hnonzero⟩
    have hfield : bits.toBitVec.toNat / 0x800000 % 0x100 = 255 := by
      rw [← hexponent, hfull]
      rfl
    apply hnonzero
    rw [eq_ofNat_iff (by decide), hmantissa]
    omega
  have hpack := @pack_unpack Format.binary32 bits.toBitVec (by decide)
  rw [hnumber] at hpack
  exact UInt32.toBitVec_inj.1 hpack

theorem toNat_toBits_ofRatio (num den : Nat) :
    (ofRatio num den).toBits.toNat = nearest (num * 2 ^ 149) den := by
  have hle : nearest (num * 2 ^ 149) den ≤ 0x7F800000 := Nat.min_le_right _ _
  have hbits : (UInt32.ofNat (nearest (num * 2 ^ 149) den)).toNat = nearest (num * 2 ^ 149) den :=
    UInt32.toNat_ofNat_of_lt' (by simp only [UInt32.size]; omega)
  rw [ofRatio_eq, toBits_ofBits (by rw [hbits]; exact hle), hbits]

theorem magnitude_ofRatio (num den : Nat) :
    magnitude (ofRatio num den) = nearest (num * 2 ^ 149) den := by
  have hle : nearest (num * 2 ^ 149) den ≤ 0x7F800000 := Nat.min_le_right _ _
  rw [magnitude, toNat_toBits_ofRatio, Nat.mod_eq_of_lt (by omega)]

theorem isNegative_ofRatio (num den : Nat) : isNegative (ofRatio num den) = false := by
  have hle : nearest (num * 2 ^ 149) den ≤ 0x7F800000 := Nat.min_le_right _ _
  rw [isNegative, toNat_toBits_ofRatio, decide_eq_false_iff_not]
  omega

theorem isNaN_ofRatio (num den : Nat) : isNaN (ofRatio num den) = false := by
  rw [isNaN_eq_false_iff, magnitude_ofRatio]
  exact Nat.min_le_right _ _

theorem fields_of_magnitude_eq {scale significand : Nat} (hlt : significand < 0x1000000)
    (hnormal : 0 < scale → 0x800000 ≤ significand)
    (h : magnitude x = scale * 0x800000 + significand) :
    Single.scale x = scale ∧ Single.significand x = significand := by
  have hfields := magnitude_eq x
  have hbelow := significand_lt x
  have habove := @le_significand x
  omega

theorem units_of_magnitude_eq {scale significand : Nat} (hlt : significand < 0x1000000)
    (hnormal : 0 < scale → 0x800000 ≤ significand)
    (h : magnitude x = scale * 0x800000 + significand) : units x = significand * 2 ^ scale := by
  obtain ⟨hscale, hsignificand⟩ := fields_of_magnitude_eq hlt hnormal h
  rw [units, hscale, hsignificand]

theorem units_of_magnitude_nearest (hden : 0 < den) (hfinite : nearest num den < 0x7F800000)
    (h : magnitude x = nearest num den) :
    units x = roundHalfEven num (den * 2 ^ scaleOf num den) * 2 ^ scaleOf num den := by
  obtain ⟨hle, hnormal⟩ := @significand_of_scaleOf num _ hden
  rw [nearest] at h hfinite
  generalize roundHalfEven num (den * 2 ^ scaleOf num den) = significand at *
  generalize scaleOf num den = scale at *
  rw [min_eq_left (by omega)] at h
  obtain hlt | rfl := Nat.lt_or_eq_of_le hle
  · exact units_of_magnitude_eq hlt hnormal h
  · -- The significand has carried into the scale.
    have hcarry : magnitude x = (scale + 1) * 0x800000 + 0x800000 := by omega
    rw [units_of_magnitude_eq (by decide) (fun _ => Nat.le_refl _) hcarry, Nat.pow_succ]
    ring

def spacing (n : Nat) : Nat :=
  2 ^ (n.log2 - 23)

def neighbour (n : Nat) : Nat :=
  roundHalfEven n (spacing n) * spacing n

theorem neighbour_eq_iff : neighbour n = n ↔ spacing n ∣ n := by
  constructor
  · intro h
    exact ⟨roundHalfEven n (spacing n), by rw [Nat.mul_comm]; exact h.symm⟩
  · intro h
    have hpos : 0 < spacing n := Nat.two_pow_pos _
    have hround := roundHalfEven_mul (n / spacing n) hpos
    rw [Nat.div_mul_cancel h] at hround
    rw [neighbour, hround, Nat.div_mul_cancel h]

theorem spacing_of_lt (h : n < 0x1000000) : spacing n = 1 := by
  have hlog : n.log2 ≤ 23 := by
    by_cases hzero : n = 0
    · rw [hzero]
      decide
    · exact Nat.le_of_lt_succ ((Nat.log2_lt (k := 24) hzero).2 h)
  rw [spacing, Nat.sub_eq_zero_of_le hlog, Nat.pow_zero]

theorem neighbour_of_lt (h : n < 0x1000000) : neighbour n = n := by
  rw [neighbour_eq_iff, spacing_of_lt h]
  exact Nat.one_dvd n

theorem nearest_lt (h : n < 2 ^ 64) : nearest (n * 2 ^ 149) 1 < 0x7F800000 := by
  have hbound : nearest (0x800000 * 2 ^ 190) 1 = min (190 * 0x800000 + 0x800000) 0x7F800000 :=
    nearest_canonical (by decide) (fun _ => Nat.le_refl _)
  have hle : nearest (n * 2 ^ 149) 1 ≤ nearest (0x800000 * 2 ^ 190) 1 := by
    refine nearest_mono Nat.one_pos Nat.one_pos (Nat.mul_le_mul_right 1 ?_)
    calc n * 2 ^ 149 ≤ 2 ^ 64 * 2 ^ 149 := Nat.mul_le_mul_right _ (Nat.le_of_lt h)
      _ = 0x800000 * 2 ^ 190 := by norm_num
  omega

theorem units_ofNat (h : n < 2 ^ 64) : units (ofNat n) = neighbour n * 2 ^ 149 := by
  have hunits := units_of_magnitude_nearest Nat.one_pos (nearest_lt h) (magnitude_ofRatio n 1)
  rw [ofNat, hunits, Nat.one_mul]
  by_cases hzero : n = 0
  · rw [hzero]
    decide
  have hscale := scaleOf_eq hzero 149 0
  rw [Nat.pow_zero] at hscale
  by_cases hsmall : n < 0x1000000
  · -- The last bit stands for a fraction, or for one, and nothing is rounded.
    have hlog := (Nat.log2_lt (k := 24) hzero).2 hsmall
    obtain ⟨rest, hrest⟩ : ∃ rest, scaleOf (n * 2 ^ 149) 1 + rest = 149 :=
      ⟨149 - scaleOf (n * 2 ^ 149) 1, by omega⟩
    have hexact : n * 2 ^ 149 = n * 2 ^ rest * 2 ^ scaleOf (n * 2 ^ 149) 1 := by
      rw [Nat.mul_assoc, ← Nat.pow_add, Nat.add_comm rest, hrest]
    generalize scaleOf (n * 2 ^ 149) 1 = scale at hexact
    rw [neighbour_of_lt hsmall, hexact, roundHalfEven_mul _ (Nat.two_pow_pos scale)]
  · have hlog := (Nat.le_log2 (k := 24) hzero).2 (Nat.le_of_not_lt hsmall)
    have hspacing : 2 ^ scaleOf (n * 2 ^ 149) 1 = spacing n * 2 ^ 149 := by
      rw [spacing, ← Nat.pow_add]
      congr 1
      omega
    have hpos : 0 < spacing n := Nat.two_pow_pos _
    rw [hspacing, roundHalfEven_cancel hpos (Nat.two_pow_pos 149), neighbour, Nat.mul_assoc]

theorem toIntSaturating_ofNat (h : n < 2 ^ 64) (lo hi : Int) :
    toIntSaturating lo hi (ofNat n) = max lo (min hi (neighbour n)) := by
  have hwhole : wholeMagnitude (ofNat n) = neighbour n := by
    rw [wholeMagnitude, Nat.shiftLeft_eq, Nat.shiftRight_eq_div_pow]
    show units (ofNat n) / 2 ^ 149 = _
    rw [units_ofNat h, Nat.mul_div_cancel _ (Nat.two_pow_pos 149)]
  have hnan : isNaN (ofNat n) = false := isNaN_ofRatio n 1
  have hpositive : isNegative (ofNat n) = false := isNegative_ofRatio n 1
  rw [toIntSaturating, hnan, hpositive, hwhole]
  rfl

end Single
end PatchSynth
