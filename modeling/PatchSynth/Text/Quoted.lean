import PatchSynth.Text.Printable

/-!
This module contains quoted text: quotes and backslashes are escaped, a few control characters have
a letter, and what has no glyph of its own is shown by its code point.
-/

namespace PatchSynth

def quoteChar (c : Char) : List Char :=
  if c == '"' || c == '\\' then
    ['\\', c]
  else if c == '\t' then
    ['\\', 't']
  else if c == '\r' then
    ['\\', 'r']
  else if c == '\n' then
    ['\\', 'n']
  else if c == '\x00' then
    ['\\', '0']
  else if isPrintable c then
    [c]
  else
    "\\u\x7b".toList ++ Nat.toDigits 16 c.toNat ++ ['\x7d']

def quote (text : String) : String :=
  String.ofList ('"' :: (text.toList.flatMap quoteChar ++ ['"']))

end PatchSynth
