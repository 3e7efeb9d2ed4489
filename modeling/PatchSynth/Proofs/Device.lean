import Mathlib
import PatchSynth.Device.Fill

/-!
This module contains lemmas about devices: which parts of its inputs the block of a device depends
on and how large the block is.
-/

namespace PatchSynth
namespace Device

variable {ι κ : Type}

theorem map_congr {device : Device ι} {f g : ι → κ}
    (h : ∀ input ∈ device.inputs, f input = g input) : device.map f = device.map g := by
  cases device with
  | custom processor ids =>
    have hmap : ids.map f = ids.map g := List.map_congr_left h
    rw [map, hmap, map]
  | _ => simp_all [map, inputs]

theorem mem_inputs_of_mem_reads {device : Device ι} {input : ι} (h : input ∈ device.reads) :
    input ∈ device.inputs :=
  device.reads_sublist.subset h

theorem reads_eq_inputs {device : Device ι} (h : device.isCustom = false) :
    device.reads = device.inputs := by
  cases device with
  | custom => cases h
  | _ => rfl

theorem demands_map (f : ι → κ) (device : Device ι) :
    (device.map f).demands = device.demands.map fun demand => (f demand.1, demand.2) := by
  cases device with
  | custom processor inputs => cases h : processor.accepts <;> simp [map, demands, h]
  | _ => rfl

theorem mem_inputs_of_mem_demands {device : Device ι} {demand : ι × Range}
    (h : demand ∈ device.demands) : demand.1 ∈ device.inputs := by
  cases device with
  | custom processor ids =>
    cases haccepts : processor.accepts with
    | none => simp [demands, haccepts] at h
    | some accepted =>
      simp only [demands, haccepts, List.mem_map] at h
      obtain ⟨input, hmem, rfl⟩ := h
      exact hmem
  | _ => simp_all [demands, inputs]

@[simp]
theorem initialSample_map (f : ι → κ) (device : Device ι) :
    (device.map f).initialSample = device.initialSample := by
  cases device <;> rfl

theorem one_le_channels (device : Device ι) : 1 ≤ device.channels := by
  unfold channels
  split <;> omega

theorem channels_le_two (device : Device ι) : device.channels ≤ 2 := by
  unfold channels
  split <;> omega

theorem fill_map_congr {device : Device ι} {f g : ι → Feed} (request : Request) (phase : Float32)
    (hrange : ∀ input ∈ device.inputs, (f input).range = (g input).range)
    (hblock : ∀ input ∈ device.reads, (f input).block = (g input).block) :
    (device.map f).fill request phase = (device.map g).fill request phase := by
  have hfeed : ∀ input ∈ device.reads, f input = g input := by
    intro input hmem
    have hrange := hrange input (mem_inputs_of_mem_reads hmem)
    have hblock := hblock input hmem
    cases hf : f input
    cases hg : g input
    simp_all
  cases device with
  | custom processor inputs =>
    simp only [map, fill, List.map_map]
    split
    next hreads =>
      have hmap : inputs.map ((·.block) ∘ f) = inputs.map ((·.block) ∘ g) := by
        apply List.map_congr_left
        intro input hmem
        exact hblock input (by simpa [reads, hreads] using hmem)
      rw [hmap]
    next => rfl
  | _ => rw [map_congr hfeed]

theorem size_samples_run_go (waveform : Waveform) (frequencies : List Float32) (fill : Fill) :
    (frequencies.foldl (Waveform.run.go waveform) fill).samples.size
      = fill.samples.size + frequencies.length := by
  induction frequencies generalizing fill with
  | nil => rfl
  | cons hz rest ih =>
    rw [List.foldl_cons, ih]
    simp only [Waveform.run.go, Array.size_push, List.length_cons]
    omega

@[simp]
theorem size_samples_run (waveform : Waveform) (phase : Float32) (frequencies : Block) :
    (waveform.run phase frequencies).samples.size = frequencies.size := by
  rw [Waveform.run, ← Array.foldl_toList, size_samples_run_go]
  simp

theorem size_samples_rescale {low high : Float32} {source : Range} {samples rescaled : Block}
    (h : rescale low high source samples = .ok rescaled) : rescaled.size = samples.size := by
  unfold rescale at h
  dsimp only at h
  split at h
  next hempty =>
    cases h
    simp_all
  next =>
    split at h
    · cases h
      simp
    · cases h

theorem size_flatMap_pair (pairs : Array (Float32 × Float32)) :
    (pairs.flatMap fun (left, right) => #[left, right]).size = 2 * pairs.size := by
  rw [Array.size_flatMap, ← Array.sum_toList, Array.toList_map]
  have hsizes : (pairs.toList.map fun pair => (#[pair.1, pair.2] : Block).size)
      = List.replicate pairs.size 2 := by
    simp [List.map_const']
  simp only [hsizes, List.sum_replicate_nat]
  omega

theorem le_mul_channels (frames : Nat) (device : Device ι) : frames ≤ frames * device.channels :=
  Nat.le_mul_of_pos_right frames device.one_le_channels

theorem size_samples_fill {device : Device Feed} {request : Request} {phase : Float32}
    {result : Fill} (h : device.fill request phase = .ok result) :
    result.samples.size ≤ request.frames * device.channels := by
  cases device with
  | constant value =>
    cases h
    exact Nat.zero_le _
  | control axis =>
    cases h
    rw [Array.size_replicate]
    exact le_mul_channels _ _
  | oscillator waveform frequency =>
    cases h
    rw [size_samples_run]
    exact Nat.le_trans Array.size_extract_le (le_mul_channels _ _)
  | add a b =>
    cases h
    exact Nat.le_trans Array.size_extract_le (le_mul_channels _ _)
  | multiply a b =>
    cases h
    exact Nat.le_trans Array.size_extract_le (le_mul_channels _ _)
  | rescaler input low high =>
    simp only [fill, bind, Except.bind] at h
    split at h
    · cases h
    next hsamples =>
      cases h
      rw [size_samples_rescale hsamples]
      exact Nat.le_trans Array.size_extract_le (le_mul_channels _ _)
  | pan input position =>
    cases h
    have hchannels : (pan input position).channels = 2 := rfl
    rw [size_flatMap_pair, hchannels, Nat.mul_comm]
    exact Nat.mul_le_mul_right 2 Array.size_extract_le
  | stereoAdd a b =>
    cases h
    have hchannels : (stereoAdd a b).channels = 2 := rfl
    rw [hchannels, Nat.mul_comm request.frames]
    exact Array.size_extract_le
  | custom processor inputs =>
    simp only [fill, bind, Except.bind] at h
    split at h
    · cases h
    next =>
      cases h
      have hchannels : (custom processor inputs).channels = processor.channels := rfl
      rw [hchannels, Nat.mul_comm]
      exact Array.size_extract_le

end Device
end PatchSynth
