import PatchSynth.Proofs.Rack.Value

/-!
This module contains the room that recorders have left below the size limit of their files. As long
as there is room, no block is refused.
-/

namespace PatchSynth

variable {request : Request} {node : Node} {frames : Nat}

theorem Node.recorded_of_room (h : node.Sound) (hframes : frames ≤ maxFrames)
    (hroom : ∀ recorder, node.recorder = some recorder →
      recorder.written + frames * node.device.channels ≤ Wav.maxSamples) :
    (node.recorded frames).1 = .ok () := by
  unfold recorded
  cases hrecorder : node.recorder with
  | none => rfl
  | some recorder =>
    have hfits : recorder.written + (node.block frames).size ≤ Wav.maxSamples := by
      rw [size_block h hframes]
      exact hroom recorder hrecorder
    have hinOrder := h.inOrder recorder hrecorder
    simp only [Recorder.take_of_le hinOrder (whole_block h hframes) hfits]
    rfl

theorem Recorder.written_take {recorder : Recorder} {block : Block} {channels : Nat}
    (h : recorder.InOrder channels) (hwhole : block.size % channels = 0)
    (hok : (recorder.take block).1 = .ok ()) :
    (recorder.take block).2.written = recorder.written + block.size := by
  rw [take_of_le h hwhole (le_maxSamples_of_take hok)]

theorem Node.check_eq_ok_iff :
    node.check frames = .ok () ↔
      ∀ sample ∈ node.block frames, node.range.contains sample = true := by
  unfold check
  split
  next value hfind =>
    have hmem := Array.mem_of_find?_eq_some hfind
    have hout := Array.find?_some hfind
    constructor
    · intro h
      cases h
    · intro h
      rw [h value hmem] at hout
      cases hout
  next hfind => simpa using hfind

theorem Node.check_of_find {value : Float32}
    (h : (node.block frames).find? (fun sample => !node.range.contains sample) = some value) :
    node.check frames = .error (.invalidOutputRange node.device.typeName node.range value) := by
  rw [check, h]

namespace Rack

variable {rack : Rack} {id : Nat}

theorem recorder_filled (result : Fill) :
    (Step.filled request result node).recorder
      = node.recorder.map fun recorder =>
          (recorder.take ((node.store request.timestamp result).block request.frames)).2 := by
  unfold Step.filled
  rw [Node.recorder_recorded]
  rfl

theorem pulled_cases {value : Node} (h : rack.pulled request id = .ok value) :
    ∃ node, rack.nodes[id]? = some node ∧
      ((node.isStale request.timestamp = false ∧ value = node) ∨
        (node.isStale request.timestamp = true ∧
          rack.evaluated request (rack.pulledBelow request id) node = .ok value)) := by
  rw [pulled_eq] at h
  split at h
  next => cases h
  next node hnode =>
    refine ⟨node, hnode, ?_⟩
    split at h
    next hstale => exact Or.inr ⟨hstale, h⟩
    next hfresh =>
      cases h
      exact Or.inl ⟨by simpa using hfresh, rfl⟩

def HasRoom (rack : Rack) (frames : Nat) : Prop :=
  ∀ (id : Nat) (node : Node) (recorder : Recorder),
    rack.nodes[id]? = some node → node.recorder = some recorder →
      recorder.written + frames * node.device.channels ≤ Wav.maxSamples

theorem HasRoom.mono {less more : Nat} (h : rack.HasRoom more) (hle : less ≤ more) :
    rack.HasRoom less := by
  intro id node recorder hnode hrecorder
  have hroom := h id node recorder hnode hrecorder
  have := Nat.mul_le_mul_right node.device.channels hle
  omega

theorem HasRoom.empty (files : Files) (frames : Nat) : HasRoom { files } frames := by
  intro id node recorder hnode
  simp at hnode

theorem HasRoom.add (h : rack.HasRoom frames) (device : Device Nat) :
    (rack.add device).2.HasRoom frames := by
  intro id node recorder hnode hrecorder
  obtain ⟨-, hnode⟩ | ⟨-, rfl⟩ := nodes_add_cases hnode
  · exact h id node recorder hnode hrecorder
  · cases hrecorder

theorem Unplayed.hasRoom (h : rack.Unplayed) (hrack : rack.WellFormed)
    (hframes : frames ≤ maxFrames) : rack.HasRoom frames := by
  intro id node recorder hnode hrecorder
  obtain ⟨-, -, hwritten⟩ := (hrack.sound hnode).unplayed (h id node hnode).1
  have := hwritten recorder hrecorder
  have := Nat.mul_le_mul hframes node.device.channels_le_two
  have : maxFrames * 2 ≤ Wav.maxSamples := by decide
  omega

theorem take_of_recorded {recorder : Recorder} (hrecorder : node.recorder = some recorder)
    (h : (node.recorded frames).1 = .ok ()) : (recorder.take (node.block frames)).1 = .ok () := by
  unfold Node.recorded at h
  simp only [hrecorder] at h
  cases htake : (recorder.take (node.block frames)).1 with
  | ok _ => rfl
  | error e => simp [htake, Except.mapError] at h

theorem written_filled (hnode : node.Sound) {f : Nat → Feed} {result : Fill}
    (hframes : request.frames ≤ maxFrames)
    (hfill : (node.device.map f).fill request node.phase = .ok result)
    (hrecorded : ((node.store request.timestamp result).recorded request.frames).1 = .ok ())
    {recorder : Recorder} (hrecorder : (Step.filled request result node).recorder = some recorder) :
    ∃ old, node.recorder = some old ∧
      recorder.written = old.written + request.frames * node.device.channels := by
  have hstored := Node.sound_store hnode hframes hfill
  rw [recorder_filled, Option.map_eq_some_iff] at hrecorder
  obtain ⟨old, hold, rfl⟩ := hrecorder
  refine ⟨old, hold, ?_⟩
  have hwhole : ((node.store request.timestamp result).block request.frames).size
      % node.device.channels = 0 :=
    Node.whole_block hstored hframes
  have hsame : (node.store request.timestamp result).recorder = some old := hold
  have hok := take_of_recorded hsame hrecorded
  rw [Recorder.written_take (hnode.inOrder old hold) hwhole hok, Node.size_block hstored hframes]
  rfl

theorem block_filled (result : Fill) (frames : Nat) :
    (Step.filled request result node).block frames
      = (node.store request.timestamp result).block frames :=
  Node.block_recorded _ _ _

theorem WellFormed.node_refresh (h : rack.WellFormed) (hframes : request.frames ≤ maxFrames)
    (hok : (rack.refresh request id).1 = .ok ()) {other : Nat} (hreaches : rack.Reaches id other)
    (hnode : rack.nodes[other]? = some node) (hstale : node.isStale request.timestamp = true) :
    ∃ after, (rack.refresh request id).2.nodes[other]? = some after ∧
      after.last = some request.timestamp ∧ after.fills = node.fills + 1 ∧
      (after.recorder
        = node.recorder.map fun recorder => (recorder.take (after.block request.frames)).2) ∧
      ∀ recorder, node.recorder = some recorder →
        (recorder.take (after.block request.frames)).1 = .ok () := by
  obtain ⟨after, hafter, hnext⟩ := h.exists_pulled_of_reaches hframes hok hreaches
  obtain ⟨found, hfound, hcases⟩ := pulled_cases hafter
  rw [hnode] at hfound
  cases hfound
  obtain ⟨hfresh, -⟩ | ⟨-, hevaluated⟩ := hcases
  · rw [hstale] at hfresh
    cases hfresh
  · rw [evaluated_eq_ok_iff] at hevaluated
    obtain ⟨-, -, result, -, hrecorded, -, rfl⟩ := hevaluated
    refine ⟨_, hnext, ?_, ?_, ?_, ?_⟩
    · simp [Step.filled, Node.store]
    · simp [Step.filled, Node.store, Node.touch]
    · rw [recorder_filled, block_filled]
      rfl
    · intro recorder hrecorder
      have hsame : (node.touch.store request.timestamp result).recorder = some recorder := hrecorder
      rw [block_filled]
      exact take_of_recorded hsame hrecorded

theorem WellFormed.hasRoom_refresh (h : rack.WellFormed) (hframes : request.frames ≤ maxFrames)
    {rest : Nat} (hroom : rack.HasRoom (request.frames + rest))
    (hok : (rack.refresh request id).1 = .ok ()) : (rack.refresh request id).2.HasRoom rest := by
  intro other node recorder hnode hrecorder
  by_cases hle : other ≤ id
  · have hagrees := agrees_refresh hok hle
    obtain hsame | ⟨value, hvalue, hvalueNode⟩ := hagrees
    · rw [hnode] at hsame
      exact hroom.mono (Nat.le_add_left _ _) other node recorder hsame.symm hrecorder
    · rw [hnode] at hvalueNode
      cases hvalueNode
      obtain ⟨old, hold, ⟨-, rfl⟩ | ⟨-, hevaluated⟩⟩ := pulled_cases hvalue
      · exact hroom.mono (Nat.le_add_left _ _) other node recorder hold hrecorder
      · rw [evaluated_eq_ok_iff] at hevaluated
        obtain ⟨-, -, result, hfill, hrecorded, -, rfl⟩ := hevaluated
        obtain ⟨before, hbefore, hwritten⟩ :=
          written_filled (h.sound hold).touch hframes hfill hrecorded hrecorder
        have := hroom other old before hold hbefore
        have hdevice : (Step.filled request result old.touch).device = old.device := by
          simp [Step.filled, Node.store, Node.touch]
        have hchannels : old.touch.device.channels = old.device.channels := rfl
        rw [hwritten, hdevice, hchannels]
        rw [Nat.add_mul] at this
        omega
  · have hsame := (steps_refresh request id rack).1.nodes_of_not_among
      (by intro hcone; exact hle hcone.1)
    rw [hnode] at hsame
    exact hroom.mono (Nat.le_add_left _ _) other node recorder hsame.symm hrecorder

end Rack
end PatchSynth
