import PatchSynth.Proofs.Device
import PatchSynth.Proofs.Signal.Window

/-!
This module contains what devices compute over endless signals. `fill_feed` says that a device that
is asked for a block goes on with its signal where the block before ended.
-/

namespace PatchSynth

namespace Waveform

def phaseAt (frequency : Signal) : Nat → Float32
  | 0 => 0
  | time + 1 => advance (phaseAt frequency time) (frequency time)

def phaseFrom (first : Float32) (frequency : Signal) : Nat → Float32
  | 0 => first
  | time + 1 => advance (phaseFrom first frequency time) (frequency time)

theorem phaseAt_eq (frequency : Signal) : phaseAt frequency = phaseFrom 0 frequency := by
  funext time
  induction time with
  | zero => rfl
  | succ time ih => rw [phaseAt, phaseFrom, ih]

theorem foldl_go (waveform : Waveform) (first : Float32) (frequency : Signal) (start count : Nat)
    (samples : Block) :
    ((List.range' start count).map frequency).foldl (run.go waveform)
        { samples, phase := phaseFrom first frequency start }
      = { samples := samples ++ Signal.window
            (fun time => waveform.sample (phaseFrom first frequency time)) start count
          phase := phaseFrom first frequency (start + count) } := by
  induction count generalizing start samples with
  | zero => simp
  | succ count ih =>
    have hphase : advance (phaseFrom first frequency start) (frequency start)
        = phaseFrom first frequency (start + 1) := rfl
    have hcount : start + 1 + count = start + (count + 1) := by omega
    rw [List.range'_succ, List.map_cons, List.foldl_cons, run.go]
    dsimp only
    rw [hphase, ih, hcount]
    simp [Signal.window, List.range'_succ]

theorem run_window_from (waveform : Waveform) (first : Float32) (frequency : Signal)
    (start count : Nat) :
    waveform.run (phaseFrom first frequency start) (frequency.window start count)
      = { samples := Signal.window
            (fun time => waveform.sample (phaseFrom first frequency time)) start count
          phase := phaseFrom first frequency (start + count) } := by
  rw [run, ← Array.foldl_toList, Signal.toList_window, foldl_go]
  simp

theorem run_window (waveform : Waveform) (frequency : Signal) (start count : Nat) :
    waveform.run (phaseAt frequency start) (frequency.window start count)
      = { samples :=
            Signal.window (fun time => waveform.sample (phaseAt frequency time)) start count
          phase := phaseAt frequency (start + count) } := by
  rw [phaseAt_eq, run_window_from]

end Waveform

structure Tone where
  range : Range
  signal : Signal

def Tone.feed (channels offset frames : Nat) (tone : Tone) : Feed :=
  { range := tone.range, block := tone.signal.window (offset * channels) (frames * channels) }

namespace Device

variable {ι κ : Type}

def inputChannels : Device ι → Nat
  | .stereoAdd _ _ => 2
  | _ => 1

@[simp]
theorem inputChannels_map (f : ι → κ) (device : Device ι) :
    (device.map f).inputChannels = device.inputChannels := by
  cases device <;> rfl

def isOrdered : Device ι → Bool
  | .rescaler _ low high => (Range.between low high).isOrdered
  | _ => true

@[simp]
theorem isOrdered_map (f : ι → κ) (device : Device ι) :
    (device.map f).isOrdered = device.isOrdered := by
  cases device <;> rfl

@[simp]
theorem isCustom_map (f : ι → κ) (device : Device ι) :
    (device.map f).isCustom = device.isCustom := by
  cases device <;> rfl

theorem map_eq_constant_iff {f : ι → κ} {device : Device ι} {value : Float32} :
    device.map f = .constant value ↔ device = .constant value := by
  cases device <;> simp [map]

def rescaleSample (low high : Float32) (source : Range) (x : Float32) : Float32 :=
  let span := source.max - source.min
  let scale := if 0 < span then (high - low) / span else 0
  (Range.between low high).clamp (low + (x - source.min) * scale)

def signal (controls : Controls) : Device Tone → Signal
  | .constant value => fun _ => value
  | .control axis => fun _ => controls.get axis
  | .oscillator waveform frequency =>
    fun time => waveform.sample (Waveform.phaseAt frequency.signal time)
  | .add a b => fun time => a.signal time + b.signal time
  | .multiply a b => fun time => a.signal time * b.signal time
  | .rescaler input low high =>
    fun time => rescaleSample low high input.range (input.signal time)
  | .pan input position =>
    Signal.interleave (fun time => (panSample (input.signal time) (position.signal time)).1)
      fun time => (panSample (input.signal time) (position.signal time)).2
  | .stereoAdd a b => fun time => a.signal time + b.signal time
  | .custom _ _ => fun _ => 0

def phaseAt : Device Tone → Nat → Float32
  | .oscillator _ frequency, time => Waveform.phaseAt frequency.signal time
  | _, _ => 0

def written (controls : Controls) (offset frames : Nat) (device : Device Tone) : Block :=
  match device with
  | .constant _ => #[]
  | device =>
    (device.signal controls).window (offset * device.channels) (frames * device.channels)

theorem rescale_window {low high : Float32} {source : Range} {signal : Signal} {start count : Nat}
    (h : count = 0 ∨ (Range.between low high).isOrdered = true) :
    rescale low high source (signal.window start count)
      = .ok
        (Signal.window (fun time => rescaleSample low high source (signal time)) start count) := by
  unfold rescale
  dsimp only
  split
  next hempty =>
    have hcount : count = 0 := by simpa using congrArg Array.size (Array.isEmpty_iff.1 hempty)
    subst hcount
    rfl
  next hempty =>
    obtain rfl | hordered := h
    · simp at hempty
    · rw [if_pos hordered, Signal.map_window]
      rfl

theorem fill_feed (device : Device Tone) (request : Request) (offset : Nat)
    (hstandard : device.isCustom = false)
    (hordered : request.frames = 0 ∨ device.isOrdered = true) :
    (device.map (Tone.feed device.inputChannels offset request.frames)).fill request
        (device.phaseAt offset)
      = .ok { samples := device.written request.controls offset request.frames
              phase := device.phaseAt (offset + request.frames) } := by
  cases device with
  | constant value => rfl
  | control axis =>
    simp only [map, fill, written, signal, Signal.window_const, phaseAt]
    simp [channels, isStereo]
  | oscillator waveform frequency =>
    simp only [map, fill, Tone.feed, inputChannels, Nat.mul_one, Signal.extract_window, phaseAt,
      Waveform.run_window, written, signal]
    simp [channels, isStereo]
  | add a b =>
    simp only [map, fill, Tone.feed, inputChannels, Nat.mul_one, Signal.zipWith_window,
      Signal.extract_window, phaseAt, written, signal]
    simp [channels, isStereo]
  | multiply a b =>
    simp only [map, fill, Tone.feed, inputChannels, Nat.mul_one, Signal.zipWith_window,
      Signal.extract_window, phaseAt, written, signal]
    simp [channels, isStereo]
  | rescaler input low high =>
    simp only [map, fill, Tone.feed, inputChannels, Nat.mul_one, Signal.extract_window]
    rw [rescale_window hordered]
    simp [phaseAt, written, signal, channels, isStereo, bind, Except.bind, pure, Except.pure]
  | pan input position =>
    simp only [map, fill, Tone.feed, inputChannels, Nat.mul_one, Signal.flatMap_zipWith_window,
      phaseAt, written, signal]
    simp [channels, isStereo]
  | stereoAdd a b =>
    have htwice : 2 * request.frames = request.frames * 2 := Nat.mul_comm _ _
    simp only [map, fill, Tone.feed, inputChannels, htwice, Signal.zipWith_window,
      Signal.extract_window, phaseAt, written, signal]
    simp [channels, isStereo]
  | custom processor inputs => simp [isCustom] at hstandard

theorem size_samples_of_feeds {device : Device Feed} {request : Request} {phase : Float32}
    {result : Fill} (hstandard : device.isCustom = false)
    (hconstant : ∀ value, device ≠ .constant value)
    (hfeeds : ∀ feed ∈ device.inputs, feed.block.size = request.frames * device.inputChannels)
    (h : device.fill request phase = .ok result) :
    result.samples.size = request.frames * device.channels := by
  cases device with
  | constant value => exact absurd rfl (hconstant value)
  | custom processor inputs => cases hstandard
  | rescaler input low high =>
    simp only [fill, bind, Except.bind] at h
    split at h
    · cases h
    next hsamples =>
      cases h
      rw [size_samples_rescale hsamples, Array.size_extract, hfeeds input (by simp [inputs])]
      simp [inputChannels, channels, isStereo]
  | pan input position =>
    cases h
    have hinput := hfeeds input (by simp [inputs])
    have hposition := hfeeds position (by simp [inputs])
    rw [size_flatMap_pair, Array.size_extract, Array.size_zipWith, hinput, hposition]
    simp [inputChannels, channels, isStereo, Nat.mul_comm]
  | _ =>
    cases h
    simp_all [inputs, inputChannels, channels, isStereo, Nat.mul_comm]

theorem isOrdered_of_fill {device : Device Tone} {request : Request} {offset : Nat}
    {phase : Float32} {result : Fill}
    (h : (device.map (Tone.feed device.inputChannels offset request.frames)).fill request phase
      = .ok result) :
    request.frames = 0 ∨ device.isOrdered = true := by
  cases device with
  | rescaler input low high =>
    by_cases hframes : request.frames = 0
    · exact Or.inl hframes
    · cases hordered : (Range.between low high).isOrdered with
      | true => exact Or.inr hordered
      | false =>
        have hempty : ¬ (input.signal.window offset request.frames).isEmpty := by
          intro hempty
          have hsize := congrArg Array.size (Array.isEmpty_iff.1 hempty)
          rw [Signal.size_window] at hsize
          exact hframes hsize
        simp only [map, fill, Tone.feed, inputChannels, Nat.mul_one, Signal.extract_window, rescale,
          if_neg hempty, hordered] at h
        cases h
  | _ => exact Or.inr rfl

end Device
end PatchSynth
