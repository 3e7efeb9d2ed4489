import PatchSynth.Params
import PatchSynth.Text.Quoted

/-!
This module contains the types that a patch may instantiate: for each a schema of parameters and a
factory that makes a device of them.
-/

namespace PatchSynth

structure ParamSpec where
  name : String
  kind : ParamKind
  deriving DecidableEq

structure Descriptor where
  typeName : String
  params : List ParamSpec
  factory : Params → Except Error (Device Nat)

namespace Descriptor

def addParam (descriptor : Descriptor) (name kind : String) : Except Error Descriptor := do
  let kind ← ParamKind.ofText kind
  return { descriptor with params := descriptor.params ++ [{ name, kind }] }

def describe (descriptor : Descriptor) : String :=
  let params := descriptor.params.map fun param =>
    "ParamSpec \x7b name: " ++ quote param.name ++ ", kind: " ++ param.kind.label ++ " \x7d"
  "ModuleDescriptor \x7b type_name: " ++ quote descriptor.typeName ++ ", params: ["
    ++ String.intercalate ", " params ++ "], .. \x7d"

end Descriptor

structure Registry where
  descriptors : List Descriptor := []

namespace Registry

def get? (registry : Registry) (typeName : String) : Option Descriptor :=
  registry.descriptors.find? (·.typeName == typeName)

def register (registry : Registry) (descriptor : Descriptor) : Registry :=
  { descriptors :=
      registry.descriptors.filter (·.typeName != descriptor.typeName) ++ [descriptor] }

def ofList (descriptors : List Descriptor) : Registry :=
  descriptors.foldl register {}

def size (registry : Registry) : Nat :=
  registry.descriptors.length

def typeNames (registry : Registry) : List String :=
  (registry.descriptors.map (·.typeName)).mergeSort (· ≤ ·)

end Registry
end PatchSynth
