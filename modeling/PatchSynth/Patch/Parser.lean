import PatchSynth.Patch.Basic
import PatchSynth.Patch.Token
import PatchSynth.Registry
import PatchSynth.Text.Alphabetic
import PatchSynth.Text.Blank
import PatchSynth.Text.Lines

/-!
This module contains the parser of patch texts. A line `type name(param, param, ...)` defines one
instance. Its parameters bind to the schema of the type by position, and names refer to instances on
lines above. Blank lines and lines that start with `#` define nothing.
-/

namespace PatchSynth

inductive ParseFault where
  | unknownType
  | missingName
  | expectingFloat
  | expectingInt
  | expectingModule
  | unknownInstance
  | unknownKind
  | notStereo
  | notMono
  | tooManyParams
  | tooFewParams
  | instantiate (cause : Error)

namespace ParseFault

def label : ParseFault → String
  | .unknownType => "UnknownModuleType"
  | .missingName => "MissingInstanceName"
  | .expectingFloat => "ExpectingFloat"
  | .expectingInt => "ExpectingInt"
  | .expectingModule => "ExpectingModule"
  | .unknownInstance => "UnknownModuleInstance"
  | .unknownKind => "UnknownType"
  | .notStereo => "NotStereo"
  | .notMono => "NotMono"
  | .tooManyParams => "TooManyParams"
  | .tooFewParams => "TooFewParams"
  | .instantiate _ => "Instantiate"

def message : ParseFault → String
  | .unknownType => "unknown module type"
  | .missingName => "missing instance name"
  | .expectingFloat => "expecting a float"
  | .expectingInt => "expecting an int"
  | .expectingModule => "expecting module name"
  | .unknownInstance => "unknown module instance"
  | .unknownKind => "unknown type"
  | .notStereo => "module not stereo"
  | .notMono => "module not mono"
  | .tooManyParams => "too many parameters"
  | .tooFewParams => "too few parameters"
  | .instantiate _ => "failed to instantiate module"

end ParseFault

structure ParseError where
  fault : ParseFault
  lineNumber : Nat
  line : String
  token : String

namespace ParseError

def message (error : ParseError) : String :=
  "parse error on line " ++ toString error.lineNumber ++ ": " ++ error.fault.message ++ " at `"
    ++ error.token ++ "` in `" ++ error.line ++ "`"

def chain (error : ParseError) : List String :=
  error.message :: error.fault.message ::
    match error.fault with
    | .instantiate cause => cause.chain
    | _ => []

end ParseError

structure Refusal where
  fault : ParseFault
  token : List Char

namespace Patch

def paramAt (descriptor : Descriptor) (index : Nat) : Except ParseFault ParamSpec :=
  match descriptor.params[index]? with
  | some param => .ok param
  | none => .error .tooManyParams

def resolve (patch : Patch) (token : List Char) (stereo : Bool) : Except ParseFault Nat :=
  match patch.table.get? (String.ofList token) with
  | none => .error .unknownInstance
  | some id =>
    if patch.rack.isStereo id = stereo then
      .ok id
    else
      .error (if stereo then .notStereo else .notMono)

/--
Bind a token to a kind. A number where a mono instance is due becomes a constant at once, and it
stays even if a later token is refused.
-/
def bind (patch : Patch) (kind : ParamKind) (token : List Char) :
    Except ParseFault ParamValue × Patch :=
  match kind with
  | .float =>
    match numberOfToken token with
    | some value => (.ok (.float value), patch)
    | none => (.error .expectingFloat, patch)
  | .int =>
    match numberOfToken token with
    | some value =>
      (.ok (.int (Single.toIntSaturating (-0x8000000000000000) 0x7FFFFFFFFFFFFFFF value)), patch)
    | none => (.error .expectingInt, patch)
  | .mono =>
    if startsWithDigit token then
      match numberOfToken token with
      | some value =>
        let (id, patch) := patch.build (.constant value)
        (.ok (.mono id), patch.insertAnonymous id)
      | none => (.error .expectingFloat, patch)
    else
      ((patch.resolve token false).map .mono, patch)
  | .stereo =>
    if token.head?.any isAlphabetic then
      ((patch.resolve token true).map .stereo, patch)
    else
      (.error .expectingModule, patch)
  | .string => (.error .unknownKind, patch)

def bindAll (patch : Patch) (last : List Char) :
    List ParamSpec → List (List Char) → Except Refusal (List ParamValue) × Patch
  | [], [] => (.ok [], patch)
  | [], token :: _ => (.error { fault := .tooManyParams, token }, patch)
  | _ :: _, [] => (.error { fault := .tooFewParams, token := last }, patch)
  | param :: params, token :: tokens =>
    match patch.bind param.kind token with
    | (.error fault, patch) => (.error { fault, token }, patch)
    | (.ok value, patch) =>
      match patch.bindAll token params tokens with
      | (.error refusal, patch) => (.error refusal, patch)
      | (.ok values, patch) => (.ok (value :: values), patch)

def define (patch : Patch) (registry : Registry) (lineNumber : Nat) (tokens : List (List Char)) :
    Except Refusal Nat × Patch :=
  let typeToken := tokens.headD []
  match registry.get? (String.ofList typeToken) with
  | none => (.error { fault := .unknownType, token := typeToken }, patch)
  | some descriptor =>
    match tokens.tail with
    | [] => (.error { fault := .missingName, token := typeToken }, patch)
    | name :: tokens =>
      match patch.bindAll name descriptor.params tokens with
      | (.error refusal, patch) => (.error refusal, patch)
      | (.ok values, patch) =>
        match descriptor.factory { values } with
        | .error cause => (.error { fault := .instantiate cause, token := typeToken }, patch)
        | .ok device =>
          let (id, patch) := patch.build device
          let name := String.ofList name
          let patch := patch.note (.instantiated lineNumber (String.ofList typeToken) name)
          (.ok id, patch.insert name id)

end Patch

def isComment (line : List Char) : Bool :=
  (trim line).head?.all (· == '#')

structure Parser where
  patch : Patch := {}
  lineNumber : Nat := 0

namespace Parser

def addLine (parser : Parser) (registry : Registry) (line : List Char) :
    Except ParseError (Option Nat) × Parser :=
  let lineNumber := parser.lineNumber + 1
  if isComment line then
    (.ok none, { parser with lineNumber })
  else
    match parser.patch.define registry lineNumber (tokens line) with
    | (.ok id, patch) => (.ok (some id), { patch, lineNumber })
    | (.error { fault, token }, patch) =>
      let line := String.ofList (trimEnd line)
      (.error { fault, lineNumber, line, token := String.ofList token }, { patch, lineNumber })

def addLines (parser : Parser) (registry : Registry) :
    List (List Char) → Except ParseError Unit × Parser
  | [] => (.ok (), parser)
  | line :: rest =>
    match parser.addLine registry line with
    | (.error error, parser) => (.error error, parser)
    | (.ok _, parser) => parser.addLines registry rest

def parse (parser : Parser) (registry : Registry) (text : String) :
    Except ParseError Unit × Parser :=
  parser.addLines registry (lines text.toList)

end Parser

inductive LoadError where
  | file (cause : FileError)
  | parse (error : ParseError)

def LoadError.chain : LoadError → List String
  | .file cause => [cause.message]
  | .parse error => error.chain

namespace Patch

def parse (patch : Patch) (registry : Registry) (text : String) :
    Except ParseError Unit × Patch :=
  let (result, parser) := Parser.parse { patch } registry text
  (result, parser.patch)

def load (patch : Patch) (registry : Registry) (path : String) : Except LoadError Unit × Patch :=
  match patch.rack.files.readText path with
  | .error cause => (.error (.file cause), patch)
  | .ok text =>
    let (result, patch) := patch.parse registry text
    (result.mapError .parse, patch)

end Patch
end PatchSynth
