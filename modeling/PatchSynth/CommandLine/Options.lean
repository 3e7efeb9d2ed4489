import PatchSynth.Rack.Basic
import PatchSynth.Single.Literal
import PatchSynth.Text.Integer

/-!
This module contains what can be said on the command line: the patch to play, how it is rendered and
recorded, where control axes are held, and how much is logged. Each option knows how its value is
read.
-/

namespace PatchSynth

structure Options where
  patch : String := "patch.txt"
  blockSize : Nat := 512
  blocks : Option Nat := none
  record : List (String × String) := []
  scaler : Float32 := Pcm.recordingScaler
  axis : List (Int × Float32) := []
  verbose : Nat := 0
  quiet : Bool := false

inductive UsageError where
  | unknownArgument
  | invalidValue
  | tooManyValues
  | argumentConflict
  | valueValidation (message : String)
  | displayHelp
  | displayVersion
  deriving DecidableEq

namespace UsageError

def label : UsageError → String
  | .unknownArgument => "UnknownArgument"
  | .invalidValue => "InvalidValue"
  | .tooManyValues => "TooManyValues"
  | .argumentConflict => "ArgumentConflict"
  | .valueValidation _ => "ValueValidation"
  | .displayHelp => "DisplayHelp"
  | .displayVersion => "DisplayVersion"

def detail? : UsageError → Option String
  | .valueValidation message => some message
  | _ => none

end UsageError

namespace Options

def logLevel (options : Options) : String :=
  if options.quiet then
    "ERROR"
  else
    match options.verbose with
    | 0 => "INFO"
    | 1 => "DEBUG"
    | _ => "TRACE"

/--
The two sides of the first `=`, of which neither may be empty.
-/
def splitPair (text : String) : Except String (List Char × List Char) :=
  let chars := text.toList
  let key := chars.takeWhile (· != '=')
  match chars.dropWhile (· != '=') with
  | _ :: value =>
    if key.isEmpty || value.isEmpty then
      .error ("expected KEY=VALUE, got `" ++ text ++ "`")
    else
      .ok (key, value)
  | [] => .error ("expected KEY=VALUE, got `" ++ text ++ "`")

def readRecord (text : String) : Except String (String × String) := do
  let (name, path) ← splitPair text
  return (String.ofList name, String.ofList path)

def readAxis (text : String) : Except String (Int × Float32) := do
  let (axis, value) ← splitPair text
  let invalid (what : String) (chars : List Char) :=
    "invalid " ++ what ++ " `" ++ String.ofList chars ++ "`"
  let axisNumber ← (readInt 0x7FFFFFFFFFFFFFFF axis).mapError fun _ => invalid "axis" axis
  let number ← (Single.read (String.ofList value)).mapError fun _ => invalid "value" value
  return (axisNumber, number)

def readBlockSize (text : String) : Except String Nat := do
  let frames ← (readNat 0xFFFFFFFFFFFFFFFF text.toList).mapError fun _ =>
    "invalid block size `" ++ text ++ "`"
  if frames = 0 || maxFrames < frames then
    .error ("block size must be between 1 and " ++ toString maxFrames)
  else
    .ok frames

end Options

inductive Argument where
  | patch
  | blockSize
  | blocks
  | record
  | scaler
  | axis
  | verbose
  | quiet
  | help
  | version
  deriving DecidableEq, Inhabited

namespace Argument

def ofLong? : String → Option Argument
  | "block-size" => some .blockSize
  | "blocks" => some .blocks
  | "record" => some .record
  | "scaler" => some .scaler
  | "axis" => some .axis
  | "verbose" => some .verbose
  | "quiet" => some .quiet
  | "help" => some .help
  | "version" => some .version
  | _ => none

def ofShort? : Char → Option Argument
  | 'v' => some .verbose
  | 'q' => some .quiet
  | 'h' => some .help
  | 'V' => some .version
  | _ => none

def takesValue : Argument → Bool
  | .patch | .blockSize | .blocks | .record | .scaler | .axis => true
  | .verbose | .quiet | .help | .version => false

def repeats : Argument → Bool
  | .record | .axis | .verbose => true
  | _ => false

def enter (value : String) (options : Options) : Argument → Except UsageError Options
  | .patch => if value = "" then .error .invalidValue else .ok { options with patch := value }
  | .blockSize => do
    let blockSize ← (Options.readBlockSize value).mapError .valueValidation
    return { options with blockSize }
  | .blocks => do
    let blocks ← (readNat 0xFFFFFFFFFFFFFFFF value.toList).mapError (.valueValidation ·.message)
    return { options with blocks := some blocks }
  | .record => do
    let target ← (Options.readRecord value).mapError .valueValidation
    return { options with record := options.record ++ [target] }
  | .scaler => do
    let scaler ← (Single.read value).mapError (.valueValidation ·.message)
    return { options with scaler }
  | .axis => do
    let held ← (Options.readAxis value).mapError .valueValidation
    return { options with axis := options.axis ++ [held] }
  | _ => .error .tooManyValues

def enterFlag (options : Options) : Argument → Except UsageError Options
  | .verbose => .ok { options with verbose := min (options.verbose + 1) 255 }
  | .quiet => .ok { options with quiet := true }
  | .help => .error .displayHelp
  | .version => .error .displayVersion
  | _ => .error .invalidValue

end Argument
end PatchSynth
