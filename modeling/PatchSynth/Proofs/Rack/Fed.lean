import PatchSynth.Proofs.Rack.Order

/-!
This module contains what a call for one node hands out, given what calls for its inputs hand out.
-/

namespace PatchSynth

theorem Node.room_of_idle {node : Node} (h : node.recorder = none) (samples : Nat) :
    ∀ recorder, node.recorder = some recorder → recorder.written + samples ≤ Wav.maxSamples := by
  intro recorder hrecorder
  rw [h] at hrecorder
  cases hrecorder

namespace Rack

variable {rack : Rack} {request : Request} {id input : Nat} {node : Node}

theorem WellFormed.exists_node_of_input (h : rack.WellFormed) (hnode : rack.nodes[id]? = some node)
    (hmem : input ∈ node.device.inputs) : ∃ source, rack.nodes[input]? = some source := by
  obtain ⟨hid, -⟩ := Array.getElem?_eq_some_iff.1 hnode
  exact ⟨_, Array.getElem?_eq_getElem (Nat.lt_trans (h.inputs_lt hnode input hmem) hid)⟩

structure Feeds (rack : Rack) (request : Request) (device : Device Nat) (feed : Nat → Feed) :
    Prop where
  range : ∀ input ∈ device.inputs, (feed input).range = rack.rangeOf input
  block : ∀ input ∈ device.reads, (rack.output request input).1 = .ok (feed input).block

theorem WellFormed.fst_output_of_feed (h : rack.WellFormed) (hnode : rack.nodes[id]? = some node)
    (hstale : node.isStale request.timestamp = true)
    (hdemands : rack.checkDemands node.device = .ok ())
    (hroom : ∀ recorder, node.recorder = some recorder →
      recorder.written + request.clamped.frames * node.device.channels ≤ Wav.maxSamples)
    {feed : Nat → Feed} (hfeeds : rack.Feeds request node.device feed) {result : Fill}
    (hresult : (node.device.map feed).fill request.clamped node.phase = .ok result) :
    (rack.output request id).1
      = ((node.store request.timestamp result).check request.clamped.frames).map fun _ =>
          (node.store request.timestamp result).block request.clamped.frames := by
  have hframes : request.clamped.frames ≤ maxFrames := Nat.min_le_right _ _
  have hpull : ∀ input ∈ node.device.reads, ∃ read,
      rack.pulledBelow request.clamped id input = .ok read ∧
        read.block request.clamped.frames = (feed input).block := by
    intro input hmem
    have hlt := h.inputs_lt hnode input (Device.mem_inputs_of_mem_reads hmem)
    have hok := hfeeds.block input hmem
    rw [fst_output_eq_pulled] at hok
    rw [pulledBelow_of_lt hlt]
    cases hpulled : rack.pulled request.clamped input with
    | error e =>
      rw [hpulled] at hok
      cases hok
    | ok read =>
      rw [hpulled] at hok
      exact ⟨read, rfl, Except.ok.inj hok⟩
  have hreads : ∀ input ∈ node.device.reads, ∃ read,
      rack.pulledBelow request.clamped id input = .ok read := by
    intro input hmem
    obtain ⟨read, hread, -⟩ := hpull input hmem
    exact ⟨read, hread⟩
  have hfill : (node.device.map (rack.feedFrom request.clamped.frames
      (rack.pulledBelow request.clamped id))).fill request.clamped node.phase = .ok result := by
    rw [← hresult]
    refine Device.fill_map_congr _ _ (fun input hmem => (hfeeds.range input hmem).symm) ?_
    intro input hmem
    obtain ⟨read, hread, hsame⟩ := hpull input hmem
    rw [feedFrom, hread]
    exact hsame
  have hsound : (node.touch.store request.clamped.timestamp result).Sound :=
    Node.sound_store (h.sound hnode).touch hframes hfill
  have hrecorded : ((node.touch.store request.clamped.timestamp result).recorded
      request.clamped.frames).1 = .ok () :=
    Node.recorded_of_room hsound hframes hroom
  have htimestamp : request.timestamp = request.clamped.timestamp := rfl
  rw [htimestamp] at hstale ⊢
  rw [fst_output_eq_pulled, pulled_of_stale hnode hstale]
  cases hcheck : (node.store request.clamped.timestamp result).check request.clamped.frames with
  | error e =>
    rw [evaluated_of_check hdemands hreads hfill hrecorded hcheck]
    rfl
  | ok _ =>
    rw [evaluated_eq_ok_iff.2 ⟨hdemands, hreads, result, hfill, hrecorded, hcheck, rfl⟩]
    exact congrArg Except.ok (block_filled _ _)

theorem WellFormed.output_of_feed (h : rack.WellFormed) (hnode : rack.nodes[id]? = some node)
    (hstale : node.isStale request.timestamp = true)
    (hdemands : rack.checkDemands node.device = .ok ())
    (hroom : ∀ recorder, node.recorder = some recorder →
      recorder.written + request.clamped.frames * node.device.channels ≤ Wav.maxSamples)
    {feed : Nat → Feed} (hfeeds : rack.Feeds request node.device feed) {result : Fill}
    (hresult : (node.device.map feed).fill request.clamped node.phase = .ok result)
    (hsize : result.samples.size = request.clamped.frames * node.device.channels)
    (hcontains : ∀ sample ∈ result.samples, node.range.contains sample = true) :
    (rack.output request id).1 = .ok result.samples := by
  have hblock : (node.store request.timestamp result).block request.clamped.frames
      = result.samples := Node.block_store _ hsize
  have hcheck : (node.store request.timestamp result).check request.clamped.frames = .ok () := by
    rw [Node.check_eq_ok_iff, hblock]
    exact hcontains
  rw [h.fst_output_of_feed hnode hstale hdemands hroom hfeeds hresult, hcheck, hblock]
  rfl

end Rack
end PatchSynth
