import PatchSynth.Single.Nearest

/-!
This module contains unsigned decimal numerals, `digits[.digits][e[+-]digits]`: the parts of one,
how the longest one is taken off the front of a text, and the number it stands for.
-/

namespace PatchSynth
namespace Single

structure Numeral.Exponent where
  letter : Char
  sign : Option Char
  digits : List Char
  deriving DecidableEq

structure Numeral where
  whole : List Char
  fraction : Option (List Char)
  exponent : Option Numeral.Exponent
  deriving DecidableEq

def digitsValue (digits : List Char) : Nat :=
  digits.foldl (fun value digit => 10 * value + (digit.toNat - '0'.toNat)) 0

namespace Numeral

namespace Exponent

def text (exponent : Exponent) : List Char :=
  exponent.letter :: (exponent.sign.toList ++ exponent.digits)

def value (exponent : Exponent) : Int :=
  if exponent.sign = some '-' then
    -(digitsValue exponent.digits)
  else
    digitsValue exponent.digits

def splitSign : List Char → Option Char × List Char
  | '+' :: rest => (some '+', rest)
  | '-' :: rest => (some '-', rest)
  | rest => (none, rest)

theorem toList_splitSign (cs : List Char) : (splitSign cs).1.toList ++ (splitSign cs).2 = cs := by
  unfold splitSign
  split <;> simp

def scan : List Char → Option Exponent × List Char
  | [] => (none, [])
  | letter :: rest =>
    let (sign, unsigned) := splitSign rest
    let digits := unsigned.takeWhile Char.isDigit
    if (letter == 'e' || letter == 'E') && !digits.isEmpty then
      (some { letter, sign, digits }, unsigned.dropWhile Char.isDigit)
    else
      (none, letter :: rest)

theorem text_scan (cs : List Char) :
    ((scan cs).1.map text).getD [] ++ (scan cs).2 = cs := by
  cases cs with
  | nil => rfl
  | cons letter rest =>
    simp only [scan]
    split
    · simp [text, List.append_assoc, List.takeWhile_append_dropWhile, toList_splitSign]
    · rfl

end Exponent

def scanFraction : List Char → Option (List Char) × List Char
  | '.' :: rest => (some (rest.takeWhile Char.isDigit), rest.dropWhile Char.isDigit)
  | rest => (none, rest)

theorem text_scanFraction (cs : List Char) :
    ((scanFraction cs).1.map ('.' :: ·)).getD [] ++ (scanFraction cs).2 = cs := by
  unfold scanFraction
  split <;> simp [List.takeWhile_append_dropWhile]

def scan (text : List Char) : Numeral × List Char :=
  let whole := text.takeWhile Char.isDigit
  let (fraction, rest) := scanFraction (text.dropWhile Char.isDigit)
  let (exponent, rest) := Exponent.scan rest
  ({ whole, fraction, exponent }, rest)

def text (numeral : Numeral) : List Char :=
  numeral.whole
    ++ (numeral.fraction.map ('.' :: ·)).getD []
    ++ (numeral.exponent.map Exponent.text).getD []

theorem text_scan (cs : List Char) : (scan cs).1.text ++ (scan cs).2 = cs := by
  simp only [scan, text, List.append_assoc, Exponent.text_scan, text_scanFraction,
    List.takeWhile_append_dropWhile]

def hasDigit (numeral : Numeral) : Bool :=
  !numeral.whole.isEmpty || !(numeral.fraction.getD []).isEmpty

def value (numeral : Numeral) : Float32 :=
  let fraction := numeral.fraction.getD []
  let exponent := (numeral.exponent.map Exponent.value).getD 0
  ofDecimal (digitsValue (numeral.whole ++ fraction)) (exponent - fraction.length)

end Numeral
end Single
end PatchSynth
