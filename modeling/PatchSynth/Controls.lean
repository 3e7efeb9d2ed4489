import PatchSynth.Range

/-!
This module contains the control axes: signals that a player holds at a value until it is changed.
-/

namespace PatchSynth

def pressureAxis : Int := 2

def axisRange (axis : Int) : Range :=
  if axis = pressureAxis then Range.unipolar else Range.bipolar

structure Controls where
  held : List (Int × Float32) := []

namespace Controls

def set (controls : Controls) (axis : Int) (value : Float32) : Controls :=
  { held := (axis, (axisRange axis).clamp value) :: controls.held.filter (·.1 != axis) }

def get (controls : Controls) (axis : Int) : Float32 :=
  (controls.held.lookup axis).getD 0

end Controls
end PatchSynth
