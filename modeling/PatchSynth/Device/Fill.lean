import PatchSynth.Device.Basic

/-!
This module contains what devices compute: the samples of one block, given those of the inputs.
Samples are paired one by one, and the shorter of two inputs decides how many there are.
-/

namespace PatchSynth

structure Feed where
  range : Range
  block : Block

structure Request where
  timestamp : Nat
  frames : Nat
  controls : Controls

namespace Device

/--
The input moved linearly from its declared range onto the one from `low` to `high`. A declared range
without width goes to `low`. Rounding at the edges is clamped away, for which the limits have to be
in order.
-/
def rescale (low high : Float32) (source : Range) (samples : Block) : Except Error Block :=
  let target := Range.between low high
  let span := source.max - source.min
  let scale := if 0 < span then (high - low) / span else 0
  if samples.isEmpty then
    .ok #[]
  else if target.isOrdered then
    .ok (samples.map fun x => target.clamp (low + (x - source.min) * scale))
  else
    .error (.unorderedLimits "Rescaler")

def panSample (x position : Float32) : Float32 × Float32 :=
  (x * ((1 - position) * 0.5), x * ((1 + position) * 0.5))

/--
Compute a block, starting at a phase. Samples that a device leaves out keep what its buffer held.
-/
def fill (request : Request) (phase : Float32) : Device Feed → Except Error Fill
  | .constant _ => .ok { samples := #[], phase }
  | .control axis =>
    .ok { samples := Array.replicate request.frames (request.controls.get axis), phase }
  | .oscillator waveform frequency =>
    .ok (waveform.run phase (frequency.block.extract 0 request.frames))
  | .add a b =>
    .ok { samples := (Array.zipWith (· + ·) a.block b.block).extract 0 request.frames, phase }
  | .multiply a b =>
    .ok { samples := (Array.zipWith (· * ·) a.block b.block).extract 0 request.frames, phase }
  | .rescaler input low high => do
    let samples ← rescale low high input.range (input.block.extract 0 request.frames)
    return { samples, phase }
  | .pan input position =>
    let pairs := (Array.zipWith panSample input.block position.block).extract 0 request.frames
    .ok { samples := pairs.flatMap fun (left, right) => #[left, right], phase }
  | .stereoAdd a b =>
    let sums := Array.zipWith (· + ·) a.block b.block
    .ok { samples := sums.extract 0 (2 * request.frames), phase }
  | .custom processor inputs => do
    let blocks := if processor.reads then inputs.map (·.block) else []
    let samples ← processor.run request.timestamp request.frames blocks
    return { samples := samples.extract 0 (processor.channels * request.frames), phase }

end Device
end PatchSynth
