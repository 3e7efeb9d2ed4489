import PatchSynth.Controls
import PatchSynth.Device.Waveform
import PatchSynth.Error

/-!
This module contains the devices that a patch is made of. A device is described over a type of
inputs: `Device Nat` is wired to the indices of nodes, `Device Range` knows what its inputs
declare, and `Device Feed` holds the blocks that it reads. To rewire a device changes neither its
type nor its channels (`typeName_map`, `isStereo_map`).
-/

namespace PatchSynth

/--
A device of the host's own. It computes its block from the timestamp, the number of frames and, if
it reads them, the blocks of its inputs. Two kinds of devices that a host could write are not
described: those that remember something from one block to the next, and those that fail after they
have written to a part of their block.
-/
structure Processor where
  typeName : String
  isStereo : Bool
  range : List Range → Range
  accepts : Option Range
  reads : Bool
  run : Nat → Nat → List Block → Except Error Block

def Processor.channels (processor : Processor) : Nat :=
  if processor.isStereo then 2 else 1

inductive Device (ι : Type) where
  | constant (value : Float32)
  | control (axis : Int)
  | oscillator (waveform : Waveform) (frequency : ι)
  | add (a b : ι)
  | multiply (a b : ι)
  | rescaler (input : ι) (low high : Float32)
  | pan (input position : ι)
  | stereoAdd (a b : ι)
  | custom (processor : Processor) (inputs : List ι)

namespace Device

variable {ι κ : Type}

def map (f : ι → κ) : Device ι → Device κ
  | .constant value => .constant value
  | .control axis => .control axis
  | .oscillator waveform frequency => .oscillator waveform (f frequency)
  | .add a b => .add (f a) (f b)
  | .multiply a b => .multiply (f a) (f b)
  | .rescaler input low high => .rescaler (f input) low high
  | .pan input position => .pan (f input) (f position)
  | .stereoAdd a b => .stereoAdd (f a) (f b)
  | .custom processor inputs => .custom processor (inputs.map f)

def inputs : Device ι → List ι
  | .constant _ | .control _ => []
  | .oscillator _ frequency => [frequency]
  | .add a b | .multiply a b | .stereoAdd a b => [a, b]
  | .rescaler input _ _ => [input]
  | .pan input position => [input, position]
  | .custom _ inputs => inputs

def reads : Device ι → List ι
  | .custom processor inputs => if processor.reads then inputs else []
  | device => device.inputs

def typeName : Device ι → String
  | .constant _ => "Constant"
  | .control _ => "Input"
  | .oscillator waveform _ => waveform.typeName
  | .add _ _ => "Add"
  | .multiply _ _ => "Multiply"
  | .rescaler _ _ _ => "Rescaler"
  | .pan _ _ => "Pan"
  | .stereoAdd _ _ => "StereoAdd"
  | .custom processor _ => processor.typeName

def isStereo : Device ι → Bool
  | .pan _ _ | .stereoAdd _ _ => true
  | .custom processor _ => processor.isStereo
  | _ => false

def isCustom : Device ι → Bool
  | .custom _ _ => true
  | _ => false

def channels (device : Device ι) : Nat :=
  if device.isStereo then 2 else 1

/--
What a fresh buffer is filled with. A constant never writes to its buffer again.
-/
def initialSample : Device ι → Float32
  | .constant value => value
  | _ => 0

def frequencyRange : Range :=
  { min := 0, max := 22050 }

/--
The inputs that have to declare a range within a given one.
-/
def demands : Device ι → List (ι × Range)
  | .oscillator _ frequency => [(frequency, frequencyRange)]
  | .pan _ position => [(position, Range.bipolar)]
  | .custom processor inputs =>
    match processor.accepts with
    | some accepted => inputs.map fun input => (input, accepted)
    | none => []
  | _ => []

def range : Device Range → Range
  | .constant value => Range.point value
  | .control axis => axisRange axis
  | .oscillator _ _ => Range.bipolar
  | .add a b | .stereoAdd a b => a.add b
  | .multiply a b => a.mul b
  | .rescaler _ low high => Range.between low high
  | .pan input _ => input.withZero
  | .custom processor inputs => processor.range inputs

theorem map_map {μ : Type} (f : ι → κ) (g : κ → μ) (device : Device ι) :
    (device.map f).map g = device.map (g ∘ f) := by
  cases device <;> simp [map]

theorem map_id (device : Device ι) : device.map id = device := by
  cases device <;> simp [map]

@[simp]
theorem typeName_map (f : ι → κ) (device : Device ι) :
    (device.map f).typeName = device.typeName := by
  cases device <;> rfl

@[simp]
theorem isStereo_map (f : ι → κ) (device : Device ι) :
    (device.map f).isStereo = device.isStereo := by
  cases device <;> rfl

@[simp]
theorem channels_map (f : ι → κ) (device : Device ι) :
    (device.map f).channels = device.channels := by
  simp [channels]

@[simp]
theorem inputs_map (f : ι → κ) (device : Device ι) :
    (device.map f).inputs = device.inputs.map f := by
  cases device <;> rfl

@[simp]
theorem reads_map (f : ι → κ) (device : Device ι) :
    (device.map f).reads = device.reads.map f := by
  cases device with
  | custom processor inputs => cases h : processor.reads <;> simp [map, reads, h]
  | _ => rfl

theorem reads_sublist (device : Device ι) : device.reads.Sublist device.inputs := by
  cases device with
  | custom processor ids => cases h : processor.reads <;> simp [reads, inputs, h]
  | _ => exact List.Sublist.refl _

end Device
end PatchSynth
