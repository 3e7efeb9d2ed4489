import PatchSynth.Single.Bits

/-!
This module contains the decimal text of a single-precision number: the fewest digits that read back
as the same number, the nearest such decimal, written positionally whatever its magnitude.
-/

namespace PatchSynth
namespace Single

structure Decimal where
  digits : Nat
  exponent : Int
  deriving DecidableEq, Inhabited

/--
The numbers that round to a finite positive number, as an interval of ratios over `unit`. A bound
belongs to the interval when the significand is even.
-/
structure RoundingInterval where
  lower : Nat
  value : Nat
  upper : Nat
  unit : Nat
  closed : Bool

namespace RoundingInterval

/--
The interval reaches half a unit of the last bit to both sides. Below a power of two the numbers lie
twice as close, and so the lower half is halved there.
-/
def of (x : Float32) : RoundingInterval :=
  let half := Nat.pow 2 (scale x + 1)
  let value := 4 * significand x * Nat.pow 2 (scale x)
  let below := if mantissaField x = 0 && exponentField x != 0 then half / 2 else half
  { lower := value - below
    value
    upper := value + half
    unit := Nat.pow 2 151
    closed := significand x % 2 = 0 }

def contains (interval : RoundingInterval) (num den : Nat) : Bool :=
  let point := num * interval.unit
  if interval.closed then
    interval.lower * den ≤ point && point ≤ interval.upper * den
  else
    interval.lower * den < point && point < interval.upper * den

/--
The decimal on the grid of multiples of `10 ^ exponent` that is nearest to the value among those in
the interval. Only the two neighbours of the value need a look, and the upper one wins a tie.
-/
def onGrid (interval : RoundingInterval) (exponent : Int) : Option Decimal :=
  let num := Nat.pow 10 exponent.toNat
  let den := Nat.pow 10 (-exponent).toNat
  let below := interval.value * den / (interval.unit * num)
  let rest := interval.value * den % (interval.unit * num)
  let lowerFits := below != 0 && interval.contains (below * num) den
  let upperFits := interval.contains ((below + 1) * num) den
  if upperFits && (!lowerFits || interval.unit * num ≤ 2 * rest) then
    some { digits := below + 1, exponent }
  else if lowerFits then
    some { digits := below, exponent }
  else
    none

def leadingExponent (interval : RoundingInterval) : Int :=
  if interval.unit ≤ interval.value then
    (Nat.toDigits 10 (interval.value / interval.unit)).length
  else
    -(go 45 (interval.value * 10))
where
  go : Nat → Nat → Nat
    | 0, _ => 0
    | fuel + 1, value => if interval.unit ≤ value then 0 else go fuel (value * 10) + 1

/--
The decimal with the fewest digits. Nine digits tell any two single-precision numbers apart.
-/
def shortest (interval : RoundingInterval) : Decimal :=
  let leading := interval.leadingExponent
  match (List.range 9).findSome? fun (count : Nat) => interval.onGrid (leading - count - 1) with
  | some decimal => decimal
  | none => { digits := 0, exponent := 0 }

end RoundingInterval

def Decimal.text (decimal : Decimal) : String :=
  let digits := Nat.toDigits 10 decimal.digits
  if 0 ≤ decimal.exponent then
    String.ofList (digits ++ List.replicate decimal.exponent.toNat '0')
  else
    let places := (-decimal.exponent).toNat
    let digits := List.replicate (places + 1 - digits.length) '0' ++ digits
    let whole := digits.take (digits.length - places)
    let fraction := (digits.drop (digits.length - places)).reverse.dropWhile (· == '0') |>.reverse
    if fraction.isEmpty then
      String.ofList whole
    else
      String.ofList (whole ++ '.' :: fraction)

def text (x : Float32) : String :=
  if isNaN x then
    "NaN"
  else
    let magnitude :=
      if !isFinite x then
        "inf"
      else if significand x = 0 then
        "0"
      else
        (RoundingInterval.of x).shortest.text
    if isNegative x then "-" ++ magnitude else magnitude

end Single
end PatchSynth
