import PatchSynth.Single.Bits

/-!
This module contains the rounding of an exact ratio or decimal to the nearest single-precision
number. A tie goes to the neighbour with the even significand, and what is beyond the largest finite
number by half a unit or more becomes infinity.
-/

namespace PatchSynth
namespace Single

def scaleOfRatio (num den : Nat) : Nat :=
  Nat.log2 (num * Nat.pow 2 149 / den) - 23

def roundHalfEven (num den : Nat) : Nat :=
  let quotient := num / den
  let remainder := num % den
  if den < 2 * remainder ∨ (2 * remainder = den ∧ quotient % 2 = 1) then
    quotient + 1
  else
    quotient

/--
The number nearest to `num / den`. A rounded significand of `2 ^ 24` carries into the exponent field
by itself, because the fields stand next to each other.
-/
def ofRatio (num den : Nat) : Float32 :=
  let scale := scaleOfRatio num den
  let significand := roundHalfEven (num * Nat.pow 2 149) (den * Nat.pow 2 scale)
  Float32.ofBits (UInt32.ofNat (min (scale * 0x800000 + significand) 0x7F800000))

def ofNat (n : Nat) : Float32 :=
  ofRatio n 1

/--
The number nearest to `digits * 10 ^ exponent`. Where the exponent alone decides for infinity or
zero, the power is not computed.
-/
def ofDecimal (digits : Nat) (exponent : Int) : Float32 :=
  if digits = 0 then
    0
  else if 60 < exponent then
    infinity
  else if exponent < -(60 + digits.log2 : Int) then
    0
  else
    ofRatio (digits * Nat.pow 10 exponent.toNat) (Nat.pow 10 (-exponent).toNat)

end Single
end PatchSynth
