import PatchSynth.CommandLine.Options

/-!
This module contains the reading of a command line, argument by argument. These are the rules of the
library that reads the arguments; what the program itself says about its values stands with the
options. A value is only looked at when the next argument shows that it is complete, so that of two
mistakes the one that is seen first is reported.
-/

namespace PatchSynth
namespace Options

structure Reading where
  options : Options := {}
  given : List Argument := []
  /-- The argument that is not entered yet, with its value if there is one already. -/
  pending : Option (Argument × Option String) := none
  literal : Bool := false

namespace Reading

def enter (reading : Reading) (argument : Argument) (value : Option String) :
    Except UsageError Reading := do
  if argument.takesValue && value.isNone then
    throw .invalidValue
  if !argument.repeats && reading.given.contains argument then
    throw .argumentConflict
  let options ←
    match value with
    | some value => argument.enter value reading.options
    | none => argument.enterFlag reading.options
  return { reading with options, given := argument :: reading.given }

def settle (reading : Reading) : Except UsageError Reading :=
  match reading.pending with
  | some (argument, value) => { reading with pending := none }.enter argument value
  | none => .ok reading

def long (reading : Reading) (text : List Char) : Except UsageError Reading := do
  let name := text.takeWhile (· != '=')
  let value := (text.dropWhile (· != '=')).tail?.map String.ofList
  match Argument.ofLong? (String.ofList name) with
  | none => throw .unknownArgument
  | some argument =>
    match argument.takesValue, value with
    | true, none => return { ← reading.settle with pending := some (argument, none) }
    | false, some _ => throw .tooManyValues
    | _, value => (← reading.settle).enter argument value

def short (reading : Reading) : List Char → Except UsageError Reading
  | [] => .ok reading
  | letter :: rest =>
    match Argument.ofShort? letter with
    | none => .error .unknownArgument
    | some argument => do
      let reading ← (← reading.settle).enter argument none
      reading.short rest

def positional (reading : Reading) (text : String) : Except UsageError Reading := do
  let isPatch := fun (pending : Argument × Option String) => pending.1 == .patch
  if reading.given.contains .patch || reading.pending.any isPatch then
    throw .unknownArgument
  return { ← reading.settle with pending := some (.patch, some text) }

def next (reading : Reading) (text : String) : Except UsageError Reading :=
  if reading.literal then
    reading.positional text
  else
    match text.toList with
    | ['-', '-'] => .ok { reading with literal := true }
    | '-' :: '-' :: rest => reading.long rest
    | '-' :: letter :: rest => reading.short (letter :: rest)
    | _ =>
      match reading.pending with
      | some (argument, none) => .ok { reading with pending := some (argument, some text) }
      | _ => reading.positional text

end Reading

def parse (arguments : List String) : Except UsageError Options := do
  let reading ← arguments.foldlM Reading.next {}
  let reading ← reading.settle
  if reading.given.contains .quiet && reading.given.contains .verbose then
    throw .argumentConflict
  return reading.options

end Options
end PatchSynth
