import PatchSynth.Proofs.Rack.Bounded
import PatchSynth.Proofs.Rack.Fed
import PatchSynth.Proofs.Rack.Held
import PatchSynth.Proofs.Rack.Isolation

/-!
This module contains what the control axes are held at after any values were set, infinities and NaN
among them. The last value that an axis was set to counts. It is moved into the range of the axis,
unless it is NaN, and so NaN is the only value at which the node of an axis fails.
-/

namespace PatchSynth

open Single

namespace Controls

variable {sets : List (Int × Float32)} {axis : Int} {value : Float32}

def setAll (sets : List (Int × Float32)) : Controls :=
  sets.foldl (fun controls (axis, value) => controls.set axis value) {}

def lastSet (sets : List (Int × Float32)) (axis : Int) : Option Float32 :=
  sets.reverse.lookup axis

theorem setAll_append (sets : List (Int × Float32)) (axis : Int) (value : Float32) :
    setAll (sets ++ [(axis, value)]) = (setAll sets).set axis value := by
  rw [setAll, List.foldl_append]
  rfl

theorem lastSet_append (sets : List (Int × Float32)) (another axis : Int) (value : Float32) :
    lastSet (sets ++ [(another, value)]) axis
      = if axis = another then some value else lastSet sets axis := by
  rw [lastSet, List.reverse_append, List.reverse_singleton, List.singleton_append,
    List.lookup_cons]
  split
  next heq => rw [if_pos (beq_iff_eq.1 heq)]
  next hne => rw [if_neg (beq_eq_false_iff_ne.1 hne), lastSet]

theorem get_setAll (sets : List (Int × Float32)) (axis : Int) :
    (setAll sets).get axis = ((lastSet sets axis).map (axisRange axis).clamp).getD 0 := by
  induction sets using List.reverseRecOn with
  | nil => rfl
  | append_singleton sets set ih =>
    obtain ⟨another, value⟩ := set
    rw [setAll_append, get_set, lastSet_append]
    split
    next heq =>
      subst heq
      rfl
    next => exact ih

theorem isNaN_clamp_axisRange (axis : Int) (value : Float32) :
    isNaN ((axisRange axis).clamp value) = isNaN value := by
  have hbounded := Range.bounded_axisRange axis
  exact Range.isNaN_clamp (isNaN_of_isFinite hbounded.finite_min)
    (isNaN_of_isFinite hbounded.finite_max)

theorem isNaN_get_setAll :
    isNaN ((setAll sets).get axis) = true ↔
      ∃ value, lastSet sets axis = some value ∧ isNaN value = true := by
  rw [get_setAll]
  cases lastSet sets axis with
  | none =>
    have hzero : isNaN (0 : Float32) = false := by decide +kernel
    simp [hzero]
  | some value => simp [isNaN_clamp_axisRange]

theorem contains_get_setAll (hnumber : isNaN ((setAll sets).get axis) = false) :
    (axisRange axis).contains ((setAll sets).get axis) = true := by
  rw [get_setAll] at hnumber ⊢
  cases hlast : lastSet sets axis with
  | none => exact Range.contains_zero_axisRange axis
  | some value =>
    rw [hlast] at hnumber
    exact (Range.bounded_axisRange axis).contains_clamp hnumber

theorem contains_get_setAll_iff :
    (axisRange axis).contains ((setAll sets).get axis) = true ↔
      ∀ value, lastSet sets axis = some value → isNaN value = false := by
  have hnan := @isNaN_get_setAll sets axis
  constructor
  · intro hcontains value hlast
    cases hvalue : isNaN value with
    | false => rfl
    | true =>
      rw [Range.contains_of_isNaN (hnan.2 ⟨value, hlast, hvalue⟩)] at hcontains
      cases hcontains
  · intro hnumbers
    apply contains_get_setAll
    rw [← Bool.not_eq_true, hnan]
    rintro ⟨value, hlast, hvalue⟩
    rw [hnumbers value hlast] at hvalue
    cases hvalue

end Controls

namespace Rack

variable {rack : Rack} {request : Request} {id : Nat} {node : Node} {axis : Int}

theorem WellFormed.shape_of_control (h : rack.WellFormed) (hnode : rack.nodes[id]? = some node)
    (hdevice : node.device = .control axis) :
    rack.shape[id]? = some (.control axis, axisRange axis) := by
  have hrange : node.range = axisRange axis := by
    rw [h.range_eq hnode, hdevice]
    rfl
  rw [getElem?_shape, hnode, ← hdevice, ← hrange]
  rfl

theorem WellFormed.of_output_control_eq_error (h : rack.WellFormed)
    (hnode : rack.nodes[id]? = some node) (hdevice : node.device = .control axis)
    {typeName : String} {range : Range} {value : Float32}
    (herror : (rack.output request id).1 = .error (.invalidOutputRange typeName range value)) :
    value = request.controls.get axis ∧ node.range.contains value = false := by
  have hcustom : node.device.isCustom = false := by
    rw [hdevice]
    rfl
  obtain ⟨input, hmem, -⟩ | ⟨feed, result, -, hresult, hcheck⟩ :=
    h.exists_check_of_output hnode hcustom herror
  · rw [hdevice] at hmem
    cases hmem
  · have hheld : (node.device.map feed).fill request.clamped node.phase
        = .ok (.held request.clamped.frames (request.controls.get axis) node.phase) := by
      rw [hdevice]
      rfl
    rw [hheld] at hresult
    cases hresult
    obtain ⟨-, hmem, hout⟩ := Node.of_check_eq_error hcheck
    rw [Node.block_held hdevice, Array.mem_replicate] at hmem
    exact ⟨hmem.2, hout⟩

/--
What a control node hands out after any values were set. An axis is held in its range exactly if NaN
is not what it was set to last, and its node hands out what it is held at. Only for NaN does a call
fail at the check of the node.
-/
theorem handsOut_of_setAll (h : rack.Reachable) (hnode : rack.nodes[id]? = some node)
    (hdevice : node.device = .control axis) (sets : List (Int × Float32)) :
    (∀ another, (axisRange another).contains ((Controls.setAll sets).get another) = true ↔
        ∀ value, Controls.lastSet sets another = some value → isNaN value = false) ∧
      node.range = axisRange axis ∧
      rack.HandsOut id (Controls.setAll sets) ((Controls.setAll sets).get axis) ∧
      ∀ (request : Request) (typeName : String) (range : Range) (value : Float32),
        request.controls = Controls.setAll sets →
        (rack.output request id).1 = .error (.invalidOutputRange typeName range value) →
        ∃ set, Controls.lastSet sets axis = some set ∧ isNaN set = true ∧ isNaN value = true := by
  have hwell := h.wellFormed
  have hrange : node.range = axisRange axis := by
    rw [hwell.range_eq hnode, hdevice]
    rfl
  refine ⟨fun another => Controls.contains_get_setAll_iff, hrange,
    hwell.handsOut (hwell.shape_of_control hnode hdevice) _ Controls.contains_get_setAll, ?_⟩
  intro request typeName range value hcontrols herror
  obtain ⟨hvalue, hout⟩ := hwell.of_output_control_eq_error hnode hdevice herror
  rw [hcontrols] at hvalue
  have hnan : isNaN ((Controls.setAll sets).get axis) = true := by
    rw [← Bool.not_eq_false]
    intro hnumber
    rw [hvalue, hrange, Controls.contains_get_setAll hnumber] at hout
    cases hout
  obtain ⟨set, hlast, hset⟩ := Controls.isNaN_get_setAll.1 hnan
  exact ⟨set, hlast, hset, hvalue ▸ hnan⟩

def axisRack (axis : Int) : Rack :=
  (({} : Rack).add (.control axis)).2

theorem reachable_axis (axis : Int) : (axisRack axis).Reachable :=
  (Reachable.empty {}).add (by simp [Device.inputs])

theorem node_axis (axis : Int) : ∃ node, (axisRack axis).nodes[0]? = some node ∧
    node.device = .control axis ∧ node.isStale 0 = true ∧ node.recorder = none :=
  ⟨_, rfl, rfl, rfl, rfl⟩

def heldRequest (sets : List (Int × Float32)) : Request :=
  { timestamp := 0, frames := 2, controls := .setAll sets }

theorem handsOut_of_setAll_infinity :
    (axisRack 2).Reachable ∧ ∃ node, (axisRack 2).nodes[0]? = some node ∧
      node.device = .control 2 ∧
      Controls.lastSet [(2, nan), (2, infinity), (0, nan)] 2 = some infinity ∧
      isNaN infinity = false ∧
      ((axisRack 2).output (heldRequest [(2, nan), (2, infinity), (0, nan)]) 0).1
        = .ok #[1, 1] := by
  obtain ⟨node, hnode, hdevice, hstale, hidle⟩ := node_axis 2
  obtain ⟨-, -, hhandsOut, -⟩ := handsOut_of_setAll (reachable_axis 2) hnode hdevice
    [(2, nan), (2, infinity), (0, nan)]
  have hheld : (Controls.setAll [(2, nan), (2, infinity), (0, nan)]).get 2 = 1 := by
    decide +kernel
  have hcontrols : (heldRequest [(2, nan), (2, infinity), (0, nan)]).controls
      = .setAll [(2, nan), (2, infinity), (0, nan)] := rfl
  rw [hheld] at hhandsOut
  obtain ⟨hone, -⟩ := hhandsOut.output hcontrols hnode hstale (Node.room_of_idle hidle _)
  exact ⟨reachable_axis 2, node, hnode, hdevice, rfl, by decide +kernel, hone (by decide +kernel)⟩

theorem output_of_setAll_nan :
    (axisRange 0).contains ((Controls.setAll [(0, nan)]).get 0) = false ∧
      (axisRack 0).Reachable ∧ ∃ node, (axisRack 0).nodes[0]? = some node ∧
        node.device = .control 0 ∧ node.range = axisRange 0 ∧ ∃ value, isNaN value = true ∧
          ((axisRack 0).output (heldRequest [(0, nan)]) 0).1
            = .error (.invalidOutputRange "Input" (axisRange 0) value) := by
  obtain ⟨node, hnode, hdevice, hstale, hidle⟩ := node_axis 0
  have hwell := (reachable_axis 0).wellFormed
  have hshape := hwell.shape_of_control hnode hdevice
  have hnan : isNaN ((Controls.setAll [(0, nan)]).get 0) = true := by decide +kernel
  have hrange : node.range = axisRange 0 := by
    rw [hwell.range_eq hnode, hdevice]
    rfl
  have hname : node.device.typeName = "Input" := by
    rw [hdevice]
    rfl
  have hcontrols : (heldRequest [(0, nan)]).controls = .setAll [(0, nan)] := rfl
  obtain ⟨-, herror⟩ := (hwell.handsOut hshape _ Controls.contains_get_setAll).output hcontrols
    hnode hstale (Node.room_of_idle hidle _)
  rw [hrange, hname] at herror
  exact ⟨Range.contains_of_isNaN hnan, reachable_axis 0, node, hnode, hdevice, hrange, _, hnan,
    herror hnan (by decide)⟩

end Rack
end PatchSynth
