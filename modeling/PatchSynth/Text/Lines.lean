/-!
This module contains the division of a text into lines. A line ends in a line feed, with a
carriage return before it or without; the last line needs no end, and a carriage return at the
very end of the text belongs to its line.
-/

namespace PatchSynth

def linesFrom (current : List Char) : List Char → List (List Char)
  | [] => if current.isEmpty then [] else [current.reverse]
  | c :: rest =>
    if c == '\n' then
      let line := if current.head? == some '\r' then current.tail else current
      line.reverse :: linesFrom [] rest
    else
      linesFrom (c :: current) rest

def lines (text : List Char) : List (List Char) :=
  linesFrom [] text

end PatchSynth
