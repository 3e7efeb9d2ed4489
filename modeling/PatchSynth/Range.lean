import PatchSynth.Single.Shortest

/-!
This module contains the closed intervals that signals promise to stay in. The bounds are compared
as floating-point numbers, so that a NaN bound contains nothing.
-/

namespace PatchSynth

structure Range where
  min : Float32
  max : Float32
  deriving BEq, Inhabited

namespace Range

def bipolar : Range := { min := -1, max := 1 }

def unipolar : Range := { min := 0, max := 1 }

def point (value : Float32) : Range := { min := value, max := value }

/--
Whether a sample lies in the range. NaN lies in none.
-/
def contains (range : Range) (sample : Float32) : Bool :=
  range.min ≤ sample && sample ≤ range.max

def within (range outer : Range) : Bool :=
  outer.min ≤ range.min && range.max ≤ outer.max

def add (a b : Range) : Range := { min := a.min + b.min, max := a.max + b.max }

/--
The range of the products of two signals: the smallest and the largest of the four products of their
bounds. A product that is NaN counts for neither.
-/
def mul (a b : Range) : Range :=
  let corners := [a.min * b.min, a.min * b.max, a.max * b.min, a.max * b.max]
  { min := corners.foldl Single.lesser Single.infinity
    max := corners.foldl Single.greater (-Single.infinity) }

def withZero (range : Range) : Range :=
  { min := Single.lesser range.min 0, max := Single.greater range.max 0 }

def between (a b : Float32) : Range :=
  { min := Single.lesser a b, max := Single.greater a b }

/--
Move a sample into the range. NaN stays.
-/
def clamp (range : Range) (sample : Float32) : Float32 :=
  Single.clamp range.min range.max sample

def isOrdered (range : Range) : Bool :=
  range.min ≤ range.max

def text (range : Range) : String :=
  "(" ++ Single.text range.min ++ ", " ++ Single.text range.max ++ ")"

end Range
end PatchSynth
