import PatchSynth.Proofs.Range
import PatchSynth.Proofs.Signal.Block

/-!
This module contains the phase of an oscillator. It starts a period and never leaves it, as long as
the frequencies are none that an oscillator refuses: a step is at most half a period, rounded up, so
that a phase never gets to two, and what is left of it from one on is again below one.
-/

namespace PatchSynth

open Single

def Block.Audible (frequencies : Block) : Prop :=
  ∀ hz ∈ frequencies, Device.frequencyRange.contains hz = true

theorem Block.Audible.extract {frequencies : Block} (h : Block.Audible frequencies)
    (start stop : Nat) : Block.Audible (frequencies.extract start stop) := by
  intro hz hmem
  exact h hz (mem_of_mem_extract hmem)

namespace Waveform

variable {phase hz x : Float32} {waveform : Waveform}

def InPeriod (phase : Float32) : Prop :=
  0 ≤ phase ∧ phase < 1

def period : Range :=
  { min := 0, max := Float32.ofBits 0x3F7FFFFF }

theorem bounded_period : period.Bounded := by
  constructor <;> decide +kernel

theorem inPeriod_iff : InPeriod phase ↔ period.contains phase = true := by
  have hlast : isNaN period.max = false ∧ rank period.max + 1 = rank 1 := by decide +kernel
  have hone : isNaN (1 : Float32) = false := by decide +kernel
  rw [InPeriod, Range.contains_iff, lt_iff, le_iff (y := period.max), hlast.1, hone, ← hlast.2]
  simp only [true_and, Int.lt_add_one_iff]
  rfl

theorem inPeriod_zero : InPeriod 0 := by
  rw [inPeriod_iff]
  decide +kernel

theorem wholePart_eq_one (hlow : 1 ≤ x) (hhigh : x < 2) : wholePart x = 1 := by
  have hone : rank (1 : Float32) = 0x3F800000 := by decide +kernel
  have htwo : rank (2 : Float32) = 0x40000000 := by decide +kernel
  rw [le_iff, hone] at hlow
  rw [lt_iff, htwo] at hhigh
  have hrank : rank x = x.toBits.toNat := by
    have hlt := x.toBits.toNat_lt
    obtain ⟨-, -, hpos⟩ := hlow
    unfold rank sign isNegative magnitude at hpos ⊢
    split
    next hnegative =>
      rw [if_pos hnegative, apply_negative] at hpos
      omega
    next hpositive =>
      simp only [decide_eq_true_eq, Nat.not_le] at hpositive
      rw [apply_positive, Nat.mod_eq_of_lt hpositive]
  have hbits : x.toBits.toNat / 0x800000 = 127 := by omega
  have hfield : exponentField x = 127 := by rw [exponentField, hbits]
  have hwhole : (x.toBits >>> UInt32.ofNat 23) <<< UInt32.ofNat 23 = 0x3F800000 := by
    apply UInt32.toNat_inj.1
    rw [UInt32.toNat_shiftLeft, UInt32.toNat_shiftRight]
    have hshift : (UInt32.ofNat 23).toNat % 32 = 23 := by decide
    rw [hshift, Nat.shiftRight_eq_div_pow, hbits]
    decide
  rw [wholePart, if_neg (by omega), hfield]
  dsimp only
  rw [hwhole]
  decide +kernel

def stepped : Range :=
  period.add (Device.frequencyRange.mul (Range.point step))

theorem bounded_stepped : stepped.Bounded := by
  constructor <;> decide +kernel

theorem contains_stepped (hphase : InPeriod phase)
    (hhz : Device.frequencyRange.contains hz = true) :
    stepped.contains (phase + hz * step) = true := by
  have hfrequency : Device.frequencyRange.Bounded := by
    constructor <;> decide +kernel
  have hstep : (Range.point step).Bounded := by
    constructor <;> decide +kernel
  have hsteps : (Device.frequencyRange.mul (Range.point step)).Bounded := by
    constructor <;> decide +kernel
  exact Range.contains_add bounded_period hsteps (inPeriod_iff.1 hphase)
    (Range.contains_mul hfrequency hstep hhz hstep.contains_min)

theorem inPeriod_advance (hphase : InPeriod phase)
    (hhz : Device.frequencyRange.contains hz = true) : InPeriod (advance phase hz) := by
  have hsum := contains_stepped hphase hhz
  have hfinite := bounded_stepped.isFinite_of_contains hsum
  have hone : isFinite (1 : Float32) = true := by decide +kernel
  have hends : stepped.min = 0 ∧ stepped.max < 2 ∧ (1 : Float32) - 1 = 0 ∧ stepped.max - 1 < 1 := by
    decide +kernel
  obtain ⟨hfirst, htwo, hleft, hrest⟩ := hends
  obtain ⟨hmin, hmax⟩ := Range.contains_iff.1 hsum
  unfold advance
  dsimp only
  split
  next hpassed =>
    rw [wholePart_eq_one hpassed (Single.lt_of_le_of_lt hmax htwo)]
    have hlow := sub_le_sub_right hone hfinite hone hpassed
    have hhigh := sub_le_sub_right hfinite bounded_stepped.finite_max hone hmax
    rw [hleft] at hlow
    exact ⟨hlow, Single.lt_of_le_of_lt hhigh hrest⟩
  next hbefore =>
    rw [hfirst] at hmin
    exact ⟨hmin, (not_le_iff (isNaN_of_isFinite hone) (isNaN_of_isFinite hfinite)).1 hbefore⟩

theorem inPeriod_phaseFrom {frequency : Signal} {count : Nat} (hphase : InPeriod phase)
    (hfrequency : ∀ time < count, Device.frequencyRange.contains (frequency time) = true) :
    ∀ time ≤ count, InPeriod (phaseFrom phase frequency time) := by
  intro time
  induction time with
  | zero => exact fun _ => hphase
  | succ time ih =>
    intro hle
    exact inPeriod_advance (ih (Nat.le_of_lt hle)) (hfrequency time hle)

theorem sample_square (phase : Float32) :
    square.sample phase = 1 ∨ square.sample phase = -1 := by
  show (if phase < 0.5 then (1 : Float32) else -1) = 1 ∨ (if phase < 0.5 then _ else _) = _
  split
  next => exact Or.inl rfl
  next => exact Or.inr rfl

theorem contains_sample
    (hsine : waveform = .sine → ∀ x, isFinite x = true → Range.bipolar.contains x.sin = true)
    (hphase : InPeriod phase) : Range.bipolar.contains (waveform.sample phase) = true := by
  rw [inPeriod_iff] at hphase
  cases waveform with
  | sine =>
    have htau : (Range.point tau).Bounded := by
      constructor <;> decide +kernel
    have hangles : ((Range.point tau).mul period).Bounded := by
      constructor <;> decide +kernel
    exact hsine rfl _ (hangles.isFinite_of_contains
      (Range.contains_mul htau bounded_period htau.contains_min hphase))
  | saw =>
    have htwo : (Range.point 2).Bounded := by
      constructor <;> decide +kernel
    have hdoubles : ((Range.point 2).mul period).Bounded := by
      constructor <;> decide +kernel
    have hdouble := Range.contains_mul htwo bounded_period htwo.contains_min hphase
    have hfinite := hdoubles.isFinite_of_contains hdouble
    have hone : isFinite (1 : Float32) = true := by decide +kernel
    have hends : -1 ≤ ((Range.point 2).mul period).min - 1 ∧
        ((Range.point 2).mul period).max - 1 ≤ 1 := by
      decide +kernel
    obtain ⟨hmin, hmax⟩ := Range.contains_iff.1 hdouble
    exact Range.contains_iff.2
      ⟨le_trans hends.1 (sub_le_sub_right hdoubles.finite_min hfinite hone hmin),
        le_trans (sub_le_sub_right hfinite hdoubles.finite_max hone hmax) hends.2⟩
  | square =>
    have hends : Range.bipolar.contains 1 = true ∧ Range.bipolar.contains (-1) = true := by
      decide +kernel
    obtain hhigh | hlow := sample_square phase
    · rw [hhigh]
      exact hends.1
    · rw [hlow]
      exact hends.2

theorem run_eq_window (waveform : Waveform) (phase : Float32) (frequencies : Block) :
    waveform.run phase frequencies
      = { samples := Signal.window (fun time => waveform.sample
            (phaseFrom phase (Signal.ofBlock frequencies) time)) 0 frequencies.size
          phase := phaseFrom phase (Signal.ofBlock frequencies) frequencies.size } := by
  have hrun := run_window_from waveform phase (Signal.ofBlock frequencies) 0 frequencies.size
  rw [Signal.window_ofBlock rfl, Nat.zero_add] at hrun
  exact hrun

section Run

variable {frequencies : Block}

theorem inPeriod_of_audible (hphase : InPeriod phase) (haudible : Block.Audible frequencies) :
    ∀ time ≤ frequencies.size,
      InPeriod (phaseFrom phase (Signal.ofBlock frequencies) time) := by
  apply inPeriod_phaseFrom hphase
  intro time hlt
  rw [Signal.ofBlock, Array.getD_eq_getD_getElem?, Array.getElem?_eq_getElem hlt]
  exact haudible _ (Array.getElem_mem hlt)

theorem inPeriod_run (waveform : Waveform) (hphase : InPeriod phase)
    (haudible : Block.Audible frequencies) : InPeriod (waveform.run phase frequencies).phase := by
  rw [run_eq_window]
  exact inPeriod_of_audible hphase haudible _ (Nat.le_refl _)

theorem exists_of_mem_run (hphase : InPeriod phase) (haudible : Block.Audible frequencies)
    {sample : Float32} (hmem : sample ∈ (waveform.run phase frequencies).samples) :
    ∃ place, InPeriod place ∧ waveform.sample place = sample := by
  rw [run_eq_window] at hmem
  obtain ⟨time, -, hlt, hsample⟩ := Signal.mem_window.1 hmem
  exact ⟨_, inPeriod_of_audible hphase haudible time (by omega), hsample⟩

end Run

end Waveform

namespace Device

variable {device : Device Feed} {request : Request} {phase : Float32} {result : Fill}

theorem inPeriod_of_fill (h : device.fill request phase = .ok result)
    (hphase : Waveform.InPeriod phase)
    (haudible : ∀ waveform frequency, device = .oscillator waveform frequency →
      Block.Audible (frequency.block.extract 0 request.frames)) :
    Waveform.InPeriod result.phase := by
  cases device with
  | oscillator waveform frequency =>
    cases h
    exact Waveform.inPeriod_run waveform hphase (haudible waveform frequency rfl)
  | rescaler input low high =>
    simp only [fill, bind, Except.bind] at h
    split at h
    · cases h
    · cases h
      exact hphase
  | custom processor inputs =>
    simp only [fill, bind, Except.bind] at h
    split at h
    · cases h
    · cases h
      exact hphase
  | _ =>
    cases h
    exact hphase

end Device
end PatchSynth
