import PatchSynth.Rack.Basic

/-!
This module contains the parameters that a factory is given. The accessors ask for a kind at an
index.
-/

namespace PatchSynth

inductive ParamValue where
  | float (value : Float32)
  | int (value : Int)
  | mono (id : Nat)
  | stereo (id : Nat)
  deriving Inhabited

def ParamValue.kind : ParamValue → ParamKind
  | .float _ => .float
  | .int _ => .int
  | .mono _ => .mono
  | .stereo _ => .stereo

structure Params where
  values : List ParamValue

namespace Params

def float (params : Params) (index : Nat) : Except Error Float32 :=
  match params.values[index]? with
  | some (.float value) => .ok value
  | _ => .error (.parameterMismatch index .float)

def int (params : Params) (index : Nat) : Except Error Int :=
  match params.values[index]? with
  | some (.int value) => .ok value
  | _ => .error (.parameterMismatch index .int)

def mono (params : Params) (index : Nat) : Except Error Nat :=
  match params.values[index]? with
  | some (.mono id) => .ok id
  | _ => .error (.parameterMismatch index .mono)

def stereo (params : Params) (index : Nat) : Except Error Nat :=
  match params.values[index]? with
  | some (.stereo id) => .ok id
  | _ => .error (.parameterMismatch index .stereo)

end Params
end PatchSynth
