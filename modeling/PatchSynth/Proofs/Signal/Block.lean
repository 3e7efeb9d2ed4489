import PatchSynth.Proofs.Signal.Device

/-!
This module contains what devices compute for one block, sample by sample. `samples_fill_eq_window`
says that a device whose inputs give it all frames computes all samples of its block, each of them
from the samples of the inputs and from the phase before the block.
-/

namespace PatchSynth

namespace Signal

def ofBlock (block : Block) : Signal :=
  fun time => block.getD time 0

theorem window_ofBlock {block : Block} {count : Nat} (h : block.size = count) :
    (ofBlock block).window 0 count = block := by
  subst h
  apply Array.ext
  · simp
  · intro i hi hlt
    simp [window, ofBlock, hlt]

end Signal

theorem Block.mem_of_mem_extract {block : Block} {start stop : Nat} {sample : Float32}
    (h : sample ∈ block.extract start stop) : sample ∈ block := by
  rw [← Array.mem_toList_iff, Array.toList_extract] at h
  exact Array.mem_toList_iff.1 (List.mem_of_mem_drop (List.mem_of_mem_take h))

namespace Device

def signalFrom (controls : Controls) (phase : Float32) : Device Feed → Signal
  | .constant value => fun _ => value
  | .control axis => fun _ => controls.get axis
  | .oscillator waveform frequency => fun time =>
    waveform.sample (Waveform.phaseFrom phase (Signal.ofBlock frequency.block) time)
  | .add a b => fun time => Signal.ofBlock a.block time + Signal.ofBlock b.block time
  | .multiply a b => fun time => Signal.ofBlock a.block time * Signal.ofBlock b.block time
  | .rescaler input low high => fun time =>
    rescaleSample low high input.range (Signal.ofBlock input.block time)
  | .pan input position =>
    let pair (time : Nat) :=
      panSample (Signal.ofBlock input.block time) (Signal.ofBlock position.block time)
    Signal.interleave (fun time => (pair time).1) fun time => (pair time).2
  | .stereoAdd a b => fun time => Signal.ofBlock a.block time + Signal.ofBlock b.block time
  | .custom _ _ => fun _ => 0

theorem rescale_eq_map {low high : Float32} {source : Range} {samples rescaled : Block}
    (h : rescale low high source samples = .ok rescaled) :
    rescaled = samples.map (rescaleSample low high source) := by
  unfold rescale at h
  dsimp only at h
  split at h
  next hempty =>
    cases h
    simp [Array.isEmpty_iff.1 hempty]
  next =>
    split at h
    · cases h
      rfl
    · cases h

theorem samples_fill_eq_window {device : Device Feed} {request : Request} {phase : Float32}
    {result : Fill} (hstandard : device.isCustom = false)
    (hconstant : ∀ value, device ≠ .constant value)
    (hfeeds : ∀ feed ∈ device.inputs, feed.block.size = request.frames * device.inputChannels)
    (h : device.fill request phase = .ok result) :
    result.samples
      = (device.signalFrom request.controls phase).window 0 (request.frames * device.channels) := by
  have hwindow : ∀ feed ∈ device.inputs,
      (Signal.ofBlock feed.block).window 0 (request.frames * device.inputChannels) = feed.block :=
    fun feed hmem => Signal.window_ofBlock (hfeeds feed hmem)
  cases device with
  | constant value => exact absurd rfl (hconstant value)
  | custom processor inputs => cases hstandard
  | control axis =>
    cases h
    simp [signalFrom, Signal.window_const, channels, isStereo]
  | oscillator waveform frequency =>
    have hblock := hwindow frequency (by simp [inputs])
    have hrun : waveform.run phase ((Signal.ofBlock frequency.block).window 0 request.frames) = _ :=
      waveform.run_window_from phase (Signal.ofBlock frequency.block) 0 request.frames
    cases h
    simp only [inputChannels, Nat.mul_one] at hblock
    rw [← hblock, Signal.extract_window, hrun]
    simp [signalFrom, channels, isStereo]
  | rescaler input low high =>
    have hblock := hwindow input (by simp [inputs])
    simp only [fill, bind, Except.bind] at h
    split at h
    · cases h
    next hsamples =>
      cases h
      simp only [inputChannels, Nat.mul_one] at hblock
      rw [rescale_eq_map hsamples, ← hblock, Signal.extract_window, Signal.map_window]
      simp [signalFrom, channels, isStereo]
  | pan input position =>
    have hinput := hwindow input (by simp [inputs])
    have hposition := hwindow position (by simp [inputs])
    cases h
    simp only [inputChannels, Nat.mul_one] at hinput hposition
    rw [← hinput, ← hposition, Signal.flatMap_zipWith_window]
    simp [signalFrom, channels, isStereo]
  | stereoAdd a b =>
    have ha := hwindow a (by simp [inputs])
    have hb := hwindow b (by simp [inputs])
    have htwice : 2 * request.frames = request.frames * 2 := Nat.mul_comm _ _
    cases h
    simp only [inputChannels] at ha hb
    rw [← ha, ← hb, Signal.zipWith_window, htwice, Signal.extract_window]
    simp [signalFrom, channels, isStereo]
  | _ a b =>
    have ha := hwindow a (by simp [inputs])
    have hb := hwindow b (by simp [inputs])
    cases h
    simp only [inputChannels, Nat.mul_one] at ha hb
    rw [← ha, ← hb, Signal.zipWith_window, Signal.extract_window]
    simp [signalFrom, channels, isStereo]

end Device
end PatchSynth
