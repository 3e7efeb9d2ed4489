import PatchSynth.Registry
import PatchSynth.Single.Nearest

/-!
This module contains probes: devices whose behaviour is given by a few settings, to find out what a
patch does with them.
-/

namespace PatchSynth

inductive Probe.Signal where
  | time
  | ramp
  | last
  | copy
  | failOdd
  | value
  deriving DecidableEq, Inhabited

structure Probe where
  typeName : String
  isStereo : Bool
  signal : Probe.Signal
  value : Option Float32
  range : Option Range
  accepts : Option Range
  access : List (ParamKind × Nat)

namespace Probe

def channels (probe : Probe) : Nat :=
  if probe.isStereo then 2 else 1

def accessParam (params : Params) : ParamKind × Nat → Except Error Unit
  | (.float, index) => (params.float index).map fun _ => ()
  | (.int, index) => (params.int index).map fun _ => ()
  | (.mono, index) => (params.mono index).map fun _ => ()
  | (.stereo, index) => (params.stereo index).map fun _ => ()
  | (.string, index) => .error (.parameterMismatch index .string)

def valueWith (probe : Probe) (params : Params) : Float32 :=
  match probe.value, params.values.head? with
  | some value, _ => value
  | none, some (.float value) => value
  | none, _ => 0

def inputOf (params : Params) : List Nat :=
  match params.values.head? with
  | some (.mono id) | some (.stereo id) => [id]
  | _ => []

def run (probe : Probe) (value : Float32) (timestamp frames : Nat) (blocks : List Block) :
    Except Error Block :=
  let size := frames * probe.channels
  match probe.signal with
  | .time => .ok (Array.replicate size (Single.ofNat timestamp))
  | .ramp => .ok (Array.ofFn fun i : Fin size => value + Single.ofNat i.val)
  | .last => .ok ((Array.replicate size 0).modify (size - 1) fun _ => value)
  | .copy => .ok ((blocks.headD #[]).extract 0 size)
  | .failOdd =>
    if timestamp % 2 = 1 then
      .error (.unknownInstance probe.typeName)
    else
      .ok (Array.replicate size value)
  | .value => .ok (Array.replicate size value)

def device (probe : Probe) (params : Params) : Device Nat :=
  let processor : Processor :=
    { typeName := probe.typeName
      isStereo := probe.isStereo
      range inputs := probe.range.getD (inputs.headD Range.bipolar)
      accepts := probe.accepts
      reads := probe.signal = .copy
      run := probe.run (probe.valueWith params) }
  .custom processor (inputOf params)

def descriptor (probe : Probe) : Descriptor where
  typeName := probe.typeName
  params := []
  factory params := do
    probe.access.forM (accessParam params)
    return probe.device params

end Probe
end PatchSynth
