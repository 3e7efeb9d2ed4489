import PatchSynth.Proofs.Range
import PatchSynth.Proofs.Rack.History
import PatchSynth.Proofs.Rack.Order

/-!
This module contains what a node for a control axis hands out while the controls are held: the value
of its axis, in every frame of every block.
-/

namespace PatchSynth

open Single

def Fill.held (frames : Nat) (value phase : Float32) : Fill :=
  { samples := Array.replicate frames value, phase }

theorem Node.block_held {node : Node} {axis : Int} (hdevice : node.device = .control axis)
    (timestamp frames : Nat) (value phase : Float32) :
    (node.store timestamp (.held frames value phase)).block frames
      = Array.replicate frames value := by
  simp [Node.block, Node.store, Fill.held, hdevice, Device.channels, Device.isStereo]

theorem Filling.Genuine.block_of_control {filling : Filling} {id : Nat} (h : filling.Genuine id)
    {axis : Int} (hdevice : filling.before.device = .control axis) :
    filling.block
      = Array.replicate filling.request.frames (filling.request.controls.get axis) := by
  obtain ⟨result, fills, hfill, hafter⟩ := h.filledAs.fill
  rw [hdevice] at hfill
  cases hfill
  rw [Filling.block, hafter]
  exact (Rack.block_filled _ _).trans (Node.block_held hdevice _ _ _ _)

namespace Rack

variable {rack : Rack} {id : Nat} {node : Node} {axis : Int} {request : Request}

/--
Whether a node hands out one value while the controls are held. Every block that it computes is full
of this value, whatever calls are made. A call for a new block of it gives this block out, provided
that there is room in its recording, unless the value is NaN, which is refused.
-/
structure HandsOut (rack : Rack) (id : Nat) (controls : Controls) (value : Float32) : Prop where
  fills : ∀ {pulls : List (Request × Nat)}, (∀ pull ∈ pulls, pull.1.controls = controls) →
    ∀ filling ∈ rack.fillings id pulls,
      filling.block = Array.replicate filling.request.frames value
  output : ∀ {request : Request} {node : Node}, request.controls = controls →
    rack.nodes[id]? = some node → node.isStale request.timestamp = true →
    (∀ recorder, node.recorder = some recorder →
      recorder.written + request.clamped.frames ≤ Wav.maxSamples) →
    (isNaN value = false →
      (rack.output request id).1 = .ok (Array.replicate request.clamped.frames value)) ∧
    (isNaN value = true → 0 < request.frames →
      (rack.output request id).1
        = .error (.invalidOutputRange node.device.typeName node.range value))

theorem WellFormed.pulled_of_not_contains (h : rack.WellFormed)
    (hframes : request.frames ≤ maxFrames) (hnode : rack.nodes[id]? = some node)
    (hdevice : node.device = .control axis) (hstale : node.isStale request.timestamp = true)
    (hroom : ∀ recorder, node.recorder = some recorder →
      recorder.written + request.frames * node.device.channels ≤ Wav.maxSamples)
    (hpos : 0 < request.frames)
    (hout : node.range.contains (request.controls.get axis) = false) :
    rack.pulled request id
      = .error (.invalidOutputRange node.device.typeName node.range
          (request.controls.get axis)) := by
  let result := Fill.held request.frames (request.controls.get axis) node.phase
  have hfill : ∀ f, (node.device.map f).fill request node.phase = .ok result := by
    intro f
    rw [hdevice]
    rfl
  have hsound : (node.touch.store request.timestamp result).Sound :=
    Node.sound_store (h.sound hnode).touch hframes (hfill (rack.feed request.frames))
  have hfind : ((node.store request.timestamp result).block request.frames).find?
      (fun sample => !node.range.contains sample) = some (request.controls.get axis) := by
    rw [Node.block_held hdevice, Array.find?_replicate, if_neg (by omega), hout]
    rfl
  rw [pulled_of_stale hnode hstale]
  refine evaluated_of_check ?_ ?_ (hfill _) ?_ (Node.check_of_find hfind)
  · rw [hdevice]
    rfl
  · rw [hdevice]
    intro input hmem
    cases hmem
  · exact Node.recorded_of_room hsound hframes hroom

theorem WellFormed.handsOut (h : rack.WellFormed)
    (hshape : rack.shape[id]? = some (.control axis, axisRange axis)) (controls : Controls)
    (hheld : isNaN (controls.get axis) = false →
      (axisRange axis).contains (controls.get axis) = true) :
    rack.HandsOut id controls (controls.get axis) := by
  constructor
  · intro pulls hpulls filling hmem
    obtain ⟨hgenuine, hsame, pull, hpull, hrequest⟩ := genuine_of_mem_fillings h hmem
    obtain ⟨node, hnode, hdevice, -⟩ := exists_of_getElem?_shape (hsame ▸ hshape)
    rw [hgenuine.node_eq] at hnode
    cases hnode
    rw [hgenuine.device_eq] at hdevice
    have hcontrols : filling.request.controls = controls := by
      rw [hrequest]
      exact hpulls pull hpull
    rw [hgenuine.block_of_control hdevice, hcontrols]
  · intro request node hcontrols hnode hstale hroom
    subst hcontrols
    obtain ⟨found, hfound, hdevice, hrange⟩ := exists_of_getElem?_shape hshape
    rw [hnode] at hfound
    cases hfound
    have hmono : node.device.channels = 1 := by
      rw [hdevice]
      rfl
    have hroom' : ∀ recorder, node.recorder = some recorder →
        recorder.written + request.clamped.frames * node.device.channels ≤ Wav.maxSamples := by
      rw [hmono, Nat.mul_one]
      exact hroom
    refine ⟨?_, ?_⟩
    · intro hnumber
      have hsteady : node.device.Steady request.controls (request.controls.get axis) := by
        rw [hdevice]
        rfl
      have hcontains : node.range.contains (request.controls.get axis) = true := by
        rw [hrange]
        exact hheld hnumber
      exact (output_of_steady h request hnode hstale hsteady hcontains hroom').1
    · intro hnan hframes
      have hpos : 0 < request.clamped.frames := Nat.lt_min.2 ⟨hframes, by decide⟩
      rw [fst_output_eq_error_iff]
      exact h.pulled_of_not_contains (Nat.min_le_right _ _) hnode hdevice hstale hroom' hpos
        (Range.contains_of_isNaN hnan)

end Rack
end PatchSynth
