import PatchSynth.Files
import PatchSynth.Range

/-!
This module contains the causes for which building a patch or playing it fails, with their texts.
-/

namespace PatchSynth

inductive ParamKind where
  | float
  | int
  | mono
  | stereo
  /-- Can be declared, but nothing binds to it. -/
  | string
  deriving DecidableEq, Inhabited

namespace ParamKind

def text : ParamKind → String
  | .float => "float"
  | .int => "int"
  | .mono => "Module"
  | .stereo => "StereoModule"
  | .string => "string"

def label : ParamKind → String
  | .float => "Float"
  | .int => "Int"
  | .mono => "Module"
  | .stereo => "StereoModule"
  | .string => "String"

def all : List ParamKind :=
  [.float, .int, .mono, .stereo, .string]

end ParamKind

inductive Error where
  | invalidInputRange (input : String) (inputRange : Range) (consumer : String) (accepted : Range)
  | invalidOutputRange (device : String) (range : Range) (value : Float32)
  | noOutput
  | outputNotStereo
  | unknownInstance (name : String)
  | unknownParamKind (text : String)
  | parameterMismatch (index : Nat) (expected : ParamKind)
  | record (path : String) (cause : FileError)
  | file (cause : FileError)
  | unorderedLimits (device : String)
  /-- A device reads a node that does not stand before it. -/
  | unwired (node : Nat)
  deriving Inhabited

namespace Error

def message : Error → String
  | .invalidInputRange input inputRange consumer accepted =>
    "invalid input range: " ++ input ++ " " ++ inputRange.text ++ " for " ++ consumer ++ " "
      ++ accepted.text
  | .invalidOutputRange device range value =>
    "invalid output range: " ++ device ++ ": " ++ Single.text range.min ++ " <= "
      ++ Single.text value ++ " <= " ++ Single.text range.max
  | .noOutput => "no output module: the patch must define an instance named `output`"
  | .outputNotStereo => "output not stereo: the `output` instance must be a stereo module"
  | .unknownInstance name => "unknown module instance `" ++ name ++ "`"
  | .unknownParamKind text => "unknown parameter type `" ++ text ++ "`"
  | .parameterMismatch index expected =>
    "parameter " ++ toString index ++ " is not a " ++ expected.text
  | .record path _ => "couldn't open " ++ path ++ " for writing"
  | .file cause => cause.message
  | .unorderedLimits device => "limits of " ++ device ++ " are not in order"
  | .unwired node => "node " ++ toString node ++ " is not wired"

def chain (error : Error) : List String :=
  match error with
  | .record _ cause => [error.message, cause.message]
  | _ => [error.message]

end Error

def ParamKind.ofText (text : String) : Except Error ParamKind :=
  match ParamKind.all.find? (·.text == text) with
  | some kind => .ok kind
  | none => .error (.unknownParamKind text)

end PatchSynth
