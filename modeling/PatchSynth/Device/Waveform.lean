import PatchSynth.Pcm
import PatchSynth.Wav.Layout

/-!
This module contains the waveforms of the oscillators. A waveform is a function of the phase, and
the phase advances by the frequency over the sample rate and wraps at one.
-/

namespace PatchSynth

inductive Waveform where
  | sine
  | saw
  | square
  deriving DecidableEq, Inhabited

structure Fill where
  samples : Block
  phase : Float32 := 0

namespace Waveform

def typeName : Waveform → String
  | .sine => "Sine"
  | .saw => "Saw"
  | .square => "Square"

def tau : Float32 :=
  Float32.ofBits 0x40C90FDB

def sample (phase : Float32) : Waveform → Float32
  | .sine => (tau * phase).sin
  | .saw => 2 * phase - 1
  | .square => if phase < 0.5 then 1 else -1

/--
The part of a period that one hertz covers between two samples.
-/
def step : Float32 :=
  1 / 44100

def advance (phase hz : Float32) : Float32 :=
  let phase := phase + hz * step
  if 1 ≤ phase then phase - Single.wholePart phase else phase

def run (waveform : Waveform) (phase : Float32) (frequencies : Block) : Fill :=
  frequencies.foldl go { samples := #[], phase }
where
  go (fill : Fill) (hz : Float32) : Fill :=
    { samples := fill.samples.push (waveform.sample fill.phase), phase := advance fill.phase hz }

end Waveform
end PatchSynth
