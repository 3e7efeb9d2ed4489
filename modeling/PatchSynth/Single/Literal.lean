import PatchSynth.Single.Numeral

/-!
This module contains the reading of a whole text as a single-precision number, as a command line
gives one: an optional sign before a numeral, `inf`, `infinity` or `nan` in any case.
-/

namespace PatchSynth
namespace Single

inductive LiteralError where
  | empty
  | invalid
  deriving DecidableEq

def LiteralError.message : LiteralError → String
  | .empty => "cannot parse float from empty string"
  | .invalid => "invalid float literal"

def readUnsigned (text : List Char) : Option Float32 :=
  let lower := text.map Char.toLower
  if lower = "inf".toList || lower = "infinity".toList then
    some infinity
  else if lower = "nan".toList then
    some nan
  else
    let (numeral, rest) := Numeral.scan text
    if numeral.hasDigit && rest.isEmpty then some numeral.value else none

def read (text : String) : Except LiteralError Float32 :=
  match text.toList with
  | [] => .error .empty
  | '-' :: rest => ((readUnsigned rest).map (- ·)).elim (.error .invalid) .ok
  | '+' :: rest => (readUnsigned rest).elim (.error .invalid) .ok
  | rest => (readUnsigned rest).elim (.error .invalid) .ok

end Single
end PatchSynth
