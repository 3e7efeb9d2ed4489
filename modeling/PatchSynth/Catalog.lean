import PatchSynth.Registry

/-!
This module contains the standard types: constants, oscillators, arithmetic, the rescaler, the pan,
and the input that reads a control axis.
-/

namespace PatchSynth
namespace Catalog

def constant : Descriptor where
  typeName := "Constant"
  params := [{ name := "value", kind := .float }]
  factory params := return .constant (← params.float 0)

def oscillator (waveform : Waveform) : Descriptor where
  typeName := waveform.typeName
  params := [{ name := "frequency", kind := .mono }]
  factory params := return .oscillator waveform (← params.mono 0)

def add : Descriptor where
  typeName := "Add"
  params := [{ name := "a", kind := .mono }, { name := "b", kind := .mono }]
  factory params := return .add (← params.mono 0) (← params.mono 1)

def multiply : Descriptor where
  typeName := "Multiply"
  params := [{ name := "a", kind := .mono }, { name := "b", kind := .mono }]
  factory params := return .multiply (← params.mono 0) (← params.mono 1)

def rescaler : Descriptor where
  typeName := "Rescaler"
  params :=
    [{ name := "input", kind := .mono }, { name := "min", kind := .float },
     { name := "max", kind := .float }]
  factory params := return .rescaler (← params.mono 0) (← params.float 1) (← params.float 2)

def pan : Descriptor where
  typeName := "Pan"
  params := [{ name := "input", kind := .mono }, { name := "position", kind := .mono }]
  factory params := return .pan (← params.mono 0) (← params.mono 1)

def stereoAdd : Descriptor where
  typeName := "StereoAdd"
  params := [{ name := "a", kind := .stereo }, { name := "b", kind := .stereo }]
  factory params := return .stereoAdd (← params.stereo 0) (← params.stereo 1)

def input : Descriptor where
  typeName := "Input"
  params := [{ name := "axis", kind := .int }]
  factory params := return .control (← params.int 0)

end Catalog

namespace Registry

def builtin : Registry :=
  ofList [Catalog.input]

def standard : Registry :=
  ofList [Catalog.constant, Catalog.oscillator .sine, Catalog.oscillator .saw,
    Catalog.oscillator .square, Catalog.add, Catalog.multiply, Catalog.rescaler, Catalog.pan,
    Catalog.stereoAdd, Catalog.input]

end Registry
end PatchSynth
