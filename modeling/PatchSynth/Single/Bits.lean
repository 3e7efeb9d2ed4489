/-!
This module contains the exact reading of a single-precision number: the fields of its bit pattern
and the rational number `significand * 2 ^ scale / 2 ^ 149` that a finite pattern stands for.
Truncation, the part before the binary point and the comparisons that step over NaN are defined on
top of it.
-/

namespace PatchSynth
namespace Single

def isNegative (x : Float32) : Bool :=
  0x80000000 ≤ x.toBits.toNat

def exponentField (x : Float32) : Nat :=
  x.toBits.toNat / 0x800000 % 0x100

def mantissaField (x : Float32) : Nat :=
  x.toBits.toNat % 0x800000

def isNaN (x : Float32) : Bool :=
  exponentField x == 255 && mantissaField x != 0

def isFinite (x : Float32) : Bool :=
  exponentField x != 255

/--
The integer that `2 ^ scale x` multiplies. Every pattern but those of zero and the subnormal numbers
has an implicit leading one.
-/
def significand (x : Float32) : Nat :=
  if exponentField x = 0 then mantissaField x else 0x800000 + mantissaField x

def scale (x : Float32) : Nat :=
  exponentField x - 1

/--
The magnitude of `x` without the part below one. Infinity has the magnitude `2 ^ 128`, which is
beyond every finite number.
-/
def wholeMagnitude (x : Float32) : Nat :=
  (significand x <<< scale x) >>> 149

/--
The integer next to `x` toward zero, moved into `[lo, hi]`. NaN gives 0.
-/
def toIntSaturating (lo hi : Int) (x : Float32) : Int :=
  if isNaN x then
    0
  else
    let whole : Int := if isNegative x then -(wholeMagnitude x) else wholeMagnitude x
    max lo (min hi whole)

/--
The largest integer that is at most `x`, for `x` at or above one: the bits behind the binary point
are cleared. From `2 ^ 23` on there are none, so that infinity and NaN stay as they are.
-/
def wholePart (x : Float32) : Float32 :=
  if 150 ≤ exponentField x then
    x
  else
    let fractionBits := UInt32.ofNat (150 - exponentField x)
    Float32.ofBits ((x.toBits >>> fractionBits) <<< fractionBits)

/--
The smaller of two numbers. A NaN is passed over unless both are, and of two zeros the first wins.
-/
def lesser (x y : Float32) : Float32 :=
  if isNaN x then y else if y < x then y else x

def greater (x y : Float32) : Float32 :=
  if isNaN x then y else if x < y then y else x

/--
Move `x` into `[lo, hi]`. NaN is neither below `lo` nor above `hi` and stays.
-/
def clamp (lo hi x : Float32) : Float32 :=
  let x := if x < lo then lo else x
  if hi < x then hi else x

def infinity : Float32 :=
  Float32.ofBits 0x7F800000

def nan : Float32 :=
  Float32.ofBits 0x7FC00000

end Single
end PatchSynth
