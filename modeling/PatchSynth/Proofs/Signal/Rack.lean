import PatchSynth.Proofs.Rack.Room
import PatchSynth.Proofs.Signal.Device

/-!
This module contains the signals of the nodes of a rack. A rack that is played block after block
hands out its signals in pieces, whatever the sizes of the pieces are: `refresh_ok_iff` says when a
pull of one more piece succeeds, and `continues_of_refresh` what it leaves behind.
-/

namespace PatchSynth
namespace Rack

def channelsOf (rack : Rack) (id : Nat) : Nat :=
  match rack.nodes[id]? with
  | some node => node.device.channels
  | none => 1

def signal (controls : Controls) (rack : Rack) (id : Nat) : Signal :=
  match rack.nodes[id]? with
  | none => fun _ => 0
  | some node =>
    let tone (input : Nat) : Tone :=
      { range := rack.rangeOf input
        signal := if _h : input < id then signal controls rack input else fun _ => 0 }
    (node.device.map tone).signal controls
termination_by id

def tone (controls : Controls) (rack : Rack) (id : Nat) : Tone :=
  { range := rack.rangeOf id, signal := rack.signal controls id }

def WellTyped (rack : Rack) : Prop :=
  ∀ (id : Nat) (node : Node), rack.nodes[id]? = some node →
    node.device.isCustom = false ∧
      ∀ input ∈ node.device.inputs, rack.channelsOf input = node.device.inputChannels

structure Clean (controls : Controls) (rack : Rack) (offset frames id : Nat) : Prop where
  demands : ∀ node, rack.nodes[id]? = some node → rack.checkDemands node.device = .ok ()
  ordered : ∀ node, rack.nodes[id]? = some node → frames = 0 ∨ node.device.isOrdered = true
  contains : ∀ node, rack.nodes[id]? = some node →
    ∀ sample ∈ (rack.signal controls id).window (offset * node.device.channels)
      (frames * node.device.channels), node.range.contains sample = true

structure PlayedTo (controls : Controls) (root offset clock : Nat) (rack : Rack) : Prop where
  wellFormed : rack.WellFormed
  wellTyped : rack.WellTyped
  phase : ∀ {id : Nat} {node : Node}, rack.Reaches root id → rack.nodes[id]? = some node →
    node.phase = (node.device.map (rack.tone controls)).phaseAt offset
  stale : ∀ {id : Nat} {node : Node}, rack.Reaches root id → rack.nodes[id]? = some node →
    node.isStale clock = true

variable {controls : Controls} {rack other : Rack} {request : Request} {root offset id : Nat}
  {node : Node}

theorem Clean.of_node {frames : Nat} (hnode : rack.nodes[id]? = some node)
    (hdemands : rack.checkDemands node.device = .ok ())
    (hordered : frames = 0 ∨ node.device.isOrdered = true)
    (hcontains : ∀ sample ∈ (rack.signal controls id).window (offset * node.device.channels)
      (frames * node.device.channels), node.range.contains sample = true) :
    rack.Clean controls offset frames id := by
  refine ⟨?_, ?_, ?_⟩ <;> intro found hfound <;> rw [hnode] at hfound <;> cases hfound
  · exact hdemands
  · exact hordered
  · exact hcontains

theorem channelsOf_of_shape (h : rack.shape = other.shape) :
    rack.channelsOf = other.channelsOf := by
  funext id
  unfold channelsOf
  cases hnode : rack.nodes[id]? with
  | none => rw [none_of_shape h hnode]
  | some node =>
    obtain ⟨twin, htwin, hdevice, -⟩ := exists_of_shape h hnode
    simp only [htwin, hdevice]

theorem signal_of_shape (h : rack.shape = other.shape) (controls : Controls) (id : Nat) :
    rack.signal controls id = other.signal controls id := by
  induction id using Nat.strongRecOn with
  | ind id ih =>
    rw [signal, signal]
    cases hnode : rack.nodes[id]? with
    | none => rw [none_of_shape h hnode]
    | some node =>
      obtain ⟨twin, htwin, hdevice, -⟩ := exists_of_shape h hnode
      simp only [htwin, hdevice, rangeOf_of_shape h]
      congr 2
      funext input
      congr 1
      split
      next hlt => exact ih input hlt
      next => rfl

theorem tone_of_shape (h : rack.shape = other.shape) (controls : Controls) :
    rack.tone controls = other.tone controls := by
  funext id
  rw [tone, tone, signal_of_shape h, rangeOf_of_shape h]

theorem WellTyped.of_shape (h : rack.WellTyped) (hshape : other.shape = rack.shape) :
    other.WellTyped := by
  intro id node hnode
  obtain ⟨twin, htwin, hdevice, -⟩ := exists_of_shape hshape hnode
  rw [← hdevice, channelsOf_of_shape hshape]
  exact h id twin htwin

theorem signal_eq (controls : Controls) (h : rack.WellFormed)
    (hnode : rack.nodes[id]? = some node) :
    rack.signal controls id = (node.device.map (rack.tone controls)).signal controls := by
  rw [signal, hnode]
  dsimp only
  congr 1
  apply Device.map_congr
  intro input hmem
  rw [dif_pos (h.inputs_lt hnode input hmem)]
  rfl

theorem block_store_written (controls : Controls) (tones : Nat → Tone) (offset timestamp : Nat)
    (phase : Float32) (hnode : node.Sound) (hstandard : node.device.isCustom = false) {frames : Nat}
    (hframes : frames ≤ maxFrames) :
    (node.store timestamp
        { samples := (node.device.map tones).written controls offset frames, phase }).block frames
      = ((node.device.map tones).signal controls).window (offset * node.device.channels)
          (frames * node.device.channels) := by
  -- A constant writes nothing, because its buffer holds the value from the start.
  by_cases hconstant : ∃ value, node.device = .constant value
  · obtain ⟨value, hvalue⟩ := hconstant
    have hbuffer := hnode.buffer_constant value hvalue
    have hmin : min frames maxFrames = frames := Nat.min_eq_left hframes
    simp only [hvalue, Device.map, Device.written, Device.signal, Signal.window_const, Node.block,
      Node.store, hbuffer]
    simp [Device.channels, Device.isStereo, hmin]
  · have hwritten : (node.device.map tones).written controls offset frames
        = ((node.device.map tones).signal controls).window (offset * node.device.channels)
            (frames * node.device.channels) := by
      have hchannels := Device.channels_map tones node.device
      cases hdevice : node.device with
      | constant value => exact absurd ⟨value, hdevice⟩ hconstant
      | custom processor inputs => simp [hdevice, Device.isCustom] at hstandard
      | _ =>
        rw [hdevice] at hchannels
        rw [← hchannels]
        rfl
    rw [Node.block_store, hwritten]
    rw [hwritten, Signal.size_window]

structure Continues (controls : Controls) (rack : Rack) (offset frames id : Nat) (value : Node) :
    Prop where
  block : value.block frames
    = (rack.signal controls id).window (offset * rack.channelsOf id) (frames * rack.channelsOf id)
  phase : ∀ node, rack.nodes[id]? = some node →
    value.phase = (node.device.map (rack.tone controls)).phaseAt (offset + frames)

theorem PlayedTo.of_unplayed (hrack : rack.WellFormed) (htyped : rack.WellTyped)
    (hunplayed : rack.Unplayed) (root clock : Nat) : rack.PlayedTo controls root 0 clock := by
  refine ⟨hrack, htyped, ?_, ?_⟩
  · intro id node _ hnode
    obtain ⟨hlast, -⟩ := hunplayed id node hnode
    obtain ⟨hphase, -, -⟩ := (hrack.sound hnode).unplayed hlast
    rw [hphase]
    cases node.device <;> rfl
  · intro id node _ hnode
    obtain ⟨hlast, -⟩ := hunplayed id node hnode
    simp [Node.isStale, hlast]

namespace PlayedTo

variable {pull : Nat → Except Error Node} {value : Node}

theorem fill_feedFrom (h : rack.PlayedTo request.controls root offset request.timestamp)
    (hreaches : rack.Reaches root id) (hnode : rack.nodes[id]? = some node)
    (hreads : ∀ input ∈ node.device.reads, ∃ read, pull input = .ok read ∧
      rack.Continues request.controls offset request.frames input read) :
    (node.device.map (rack.feedFrom request.frames pull)).fill request node.phase
      = ((node.device.map (rack.tone request.controls)).map
          (Tone.feed node.device.inputChannels offset request.frames)).fill request
          ((node.device.map (rack.tone request.controls)).phaseAt offset) := by
  obtain ⟨-, hchannels⟩ := h.wellTyped id node hnode
  rw [h.phase hreaches hnode, Device.map_map]
  apply Device.fill_map_congr
  · intro input hmem
    rfl
  · intro input hmem
    obtain ⟨read, hread, hcontinues⟩ := hreads input hmem
    have hinput := hchannels input (Device.mem_inputs_of_mem_reads hmem)
    simp only [feedFrom, hread, hcontinues.block, hinput]
    rfl

theorem fill_feedFrom_eq (h : rack.PlayedTo request.controls root offset request.timestamp)
    (hreaches : rack.Reaches root id) (hnode : rack.nodes[id]? = some node)
    (hreads : ∀ input ∈ node.device.reads, ∃ read, pull input = .ok read ∧
      rack.Continues request.controls offset request.frames input read)
    (hordered : request.frames = 0 ∨ node.device.isOrdered = true) :
    (node.device.map (rack.feedFrom request.frames pull)).fill request node.phase
      = .ok { samples := (node.device.map (rack.tone request.controls)).written request.controls
                offset request.frames
              phase := (node.device.map (rack.tone request.controls)).phaseAt
                (offset + request.frames) } := by
  obtain ⟨hstandard, -⟩ := h.wellTyped id node hnode
  have hfeed := Device.fill_feed (node.device.map (rack.tone request.controls)) request offset
    (by simpa using hstandard) (by simpa using hordered)
  rw [Device.inputChannels_map] at hfeed
  rw [h.fill_feedFrom hreaches hnode hreads, hfeed]

theorem channelsOf_eq (hnode : rack.nodes[id]? = some node) :
    rack.channelsOf id = node.device.channels := by
  simp only [channelsOf, hnode]

theorem evaluated_of_clean (h : rack.PlayedTo request.controls root offset request.timestamp)
    (hframes : request.frames ≤ maxFrames) (hroom : rack.HasRoom request.frames)
    (hreaches : rack.Reaches root id) (hnode : rack.nodes[id]? = some node)
    (hreads : ∀ input ∈ node.device.reads, ∃ read, pull input = .ok read ∧
      rack.Continues request.controls offset request.frames input read)
    (hclean : rack.Clean request.controls offset request.frames id) :
    ∃ value, rack.evaluated request pull node = .ok value ∧
      rack.Continues request.controls offset request.frames id value := by
  obtain ⟨hstandard, -⟩ := h.wellTyped id node hnode
  have hsound := h.wellFormed.sound hnode
  have hfill := h.fill_feedFrom_eq hreaches hnode hreads (hclean.ordered node hnode)
  have hsignal := signal_eq request.controls h.wellFormed hnode
  have hstored := block_store_written request.controls (rack.tone request.controls) offset
    request.timestamp ((node.device.map (rack.tone request.controls)).phaseAt
      (offset + request.frames)) hsound hstandard hframes
  refine ⟨_, evaluated_eq_ok_iff.2 ⟨hclean.demands node hnode, ?_, _, hfill, ?_, ?_, rfl⟩, ?_, ?_⟩
  · intro input hmem
    obtain ⟨read, hread, -⟩ := hreads input hmem
    exact ⟨read, hread⟩
  · apply Node.recorded_of_room (Node.sound_store hsound.touch hframes hfill) hframes
    intro recorder hrecorder
    exact hroom id node recorder hnode hrecorder
  · rw [Node.check_eq_ok_iff, hstored, ← hsignal]
    exact hclean.contains node hnode
  · rw [block_filled, channelsOf_eq hnode, hsignal]
    exact hstored
  · intro found hfound
    rw [hnode] at hfound
    cases hfound
    simp [Step.filled, Node.store]

theorem clean_of_evaluated (h : rack.PlayedTo request.controls root offset request.timestamp)
    (hframes : request.frames ≤ maxFrames)
    (hreaches : rack.Reaches root id) (hnode : rack.nodes[id]? = some node)
    (hreads : ∀ input ∈ node.device.reads, ∃ read, pull input = .ok read ∧
      rack.Continues request.controls offset request.frames input read)
    (hok : rack.evaluated request pull node = .ok value) :
    rack.Clean request.controls offset request.frames id := by
  obtain ⟨hstandard, -⟩ := h.wellTyped id node hnode
  have hsound := h.wellFormed.sound hnode
  have hsignal := signal_eq request.controls h.wellFormed hnode
  rw [evaluated_eq_ok_iff] at hok
  obtain ⟨hdemands, -, result, hfill, -, hcheck, -⟩ := hok
  have hordered : request.frames = 0 ∨ node.device.isOrdered = true := by
    rw [h.fill_feedFrom hreaches hnode hreads] at hfill
    rw [← Device.inputChannels_map (rack.tone request.controls)] at hfill
    simpa using Device.isOrdered_of_fill hfill
  rw [h.fill_feedFrom_eq hreaches hnode hreads hordered] at hfill
  cases hfill
  rw [Node.check_eq_ok_iff, block_store_written _ _ _ _ _ hsound hstandard hframes, ← hsignal]
    at hcheck
  exact Clean.of_node hnode hdemands hordered hcheck

theorem pulled_of_clean (h : rack.PlayedTo request.controls root offset request.timestamp)
    (hframes : request.frames ≤ maxFrames) (hroom : rack.HasRoom request.frames)
    (hid : id < rack.nodes.size) (hreaches : rack.Reaches root id)
    (hclean : ∀ other, rack.Reaches id other →
      rack.Clean request.controls offset request.frames other) :
    ∃ value, rack.pulled request id = .ok value ∧
      rack.Continues request.controls offset request.frames id value := by
  -- The induction goes down the indices, because inputs stand before the nodes that read them.
  induction id using Nat.strongRecOn with
  | ind id ih =>
    have hnode : rack.nodes[id]? = some rack.nodes[id] := Array.getElem?_eq_getElem hid
    rw [pulled_of_stale hnode (h.stale hreaches hnode)]
    apply h.evaluated_of_clean hframes hroom hreaches hnode _ (hclean id (Reaches.refl rack id))
    intro input hmem
    have hlt := h.wellFormed.inputs_lt hnode input (Device.mem_inputs_of_mem_reads hmem)
    have hread : rack.Reads id input := ⟨_, hnode, hmem⟩
    rw [pulledBelow_of_lt hlt]
    exact ih input hlt (by omega) (hreaches.tail hread)
      fun other hother => hclean other (Reaches.head hread hother)

theorem clean_of_pulled (h : rack.PlayedTo request.controls root offset request.timestamp)
    (hframes : request.frames ≤ maxFrames) (hroom : rack.HasRoom request.frames)
    (hreaches : rack.Reaches root id) (hok : rack.pulled request id = .ok value) {other : Nat}
    (hother : rack.Reaches id other) :
    rack.Clean request.controls offset request.frames other := by
  induction id using Nat.strongRecOn generalizing value other with
  | ind id ih =>
    obtain ⟨node, hnode, hcases⟩ := pulled_cases hok
    have hstale := h.stale hreaches hnode
    obtain ⟨hfresh, -⟩ | ⟨-, hevaluated⟩ := hcases
    · rw [hstale] at hfresh
      cases hfresh
    · -- What is read was pulled with success, so that it is clean and gives its piece.
      have hinputs : ∀ input ∈ node.device.reads, input < id ∧ rack.Reads id input ∧
          ∃ read, rack.pulled request input = .ok read := by
        intro input hmem
        have hlt := h.wellFormed.inputs_lt hnode input (Device.mem_inputs_of_mem_reads hmem)
        obtain ⟨-, hreads, -⟩ := evaluated_eq_ok_iff.1 hevaluated
        have hread := hreads input hmem
        rw [pulledBelow_of_lt hlt] at hread
        exact ⟨hlt, ⟨node, hnode, hmem⟩, hread⟩
      obtain ⟨hid, -⟩ := Array.getElem?_eq_some_iff.1 hnode
      obtain rfl | ⟨input, ⟨found, hfound, hmem⟩, hrest⟩ := Relation.ReflTransGen.cases_head hother
      · apply h.clean_of_evaluated hframes hreaches hnode _ hevaluated
        intro input hmem
        obtain ⟨hlt, hread, read, hpulled⟩ := hinputs input hmem
        have hinput := hreaches.tail hread
        rw [pulledBelow_of_lt hlt]
        exact h.pulled_of_clean hframes hroom (by omega) hinput
          fun other hother => ih input hlt hinput hpulled hother
      · rw [hnode] at hfound
        cases hfound
        obtain ⟨hlt, hread, read, hpulled⟩ := hinputs input hmem
        exact ih input hlt (hreaches.tail hread) hpulled hrest

theorem refresh_ok_iff (h : rack.PlayedTo request.controls root offset request.timestamp)
    (hframes : request.frames ≤ maxFrames) (hroom : rack.HasRoom request.frames)
    (hroot : root < rack.nodes.size) :
    (rack.refresh request root).1 = .ok () ↔
      ∀ id, rack.Reaches root id → rack.Clean request.controls offset request.frames id := by
  rw [refresh_eq_pulled]
  constructor
  · intro hok id hreaches
    cases hpulled : rack.pulled request root with
    | error e => simp [hpulled, Except.map] at hok
    | ok value => exact h.clean_of_pulled hframes hroom (Reaches.refl rack root) hpulled hreaches
  · intro hclean
    obtain ⟨value, hvalue, -⟩ :=
      h.pulled_of_clean hframes hroom hroot (Reaches.refl rack root) hclean
    rw [hvalue]
    rfl

theorem continues_of_refresh (h : rack.PlayedTo request.controls root offset request.timestamp)
    (hframes : request.frames ≤ maxFrames) (hroom : rack.HasRoom request.frames)
    (hok : (rack.refresh request root).1 = .ok ()) (hreaches : rack.Reaches root id) :
    ∃ value, (rack.refresh request root).2.nodes[id]? = some value ∧
      value.last = some request.timestamp ∧
      rack.Continues request.controls offset request.frames id value := by
  obtain ⟨value, hvalue, hnext⟩ := h.wellFormed.exists_pulled_of_reaches hframes hok hreaches
  have hclean : ∀ other, rack.Reaches id other →
      rack.Clean request.controls offset request.frames other := by
    intro other hother
    exact h.clean_of_pulled hframes hroom hreaches hvalue hother
  obtain ⟨node, hnode, -⟩ := pulled_cases hvalue
  obtain ⟨hid, -⟩ := Array.getElem?_eq_some_iff.1 hnode
  obtain ⟨found, hfound, hcontinues⟩ := h.pulled_of_clean hframes hroom hid hreaches hclean
  rw [hvalue] at hfound
  cases hfound
  obtain ⟨after, hafter, hlast, -⟩ :=
    h.wellFormed.node_refresh hframes hok hreaches hnode (h.stale hreaches hnode)
  rw [hnext] at hafter
  cases hafter
  exact ⟨value, hnext, hlast, hcontinues⟩

theorem refresh (h : rack.PlayedTo request.controls root offset request.timestamp)
    (hframes : request.frames ≤ maxFrames) (hroom : rack.HasRoom request.frames)
    (hok : (rack.refresh request root).1 = .ok ()) :
    (rack.refresh request root).2.PlayedTo request.controls root (offset + request.frames)
      (request.timestamp + 1) := by
  have hshape := shape_refresh request rack root
  refine ⟨h.wellFormed.refresh hframes root, h.wellTyped.of_shape hshape, ?_, ?_⟩
  · intro id node hreaches hnode
    rw [reaches_of_shape hshape] at hreaches
    obtain ⟨value, hvalue, -, hcontinues⟩ := h.continues_of_refresh hframes hroom hok hreaches
    rw [hnode] at hvalue
    cases hvalue
    obtain ⟨old, hold, hdevice, -⟩ := exists_of_shape hshape hnode
    rw [tone_of_shape hshape, ← hdevice]
    exact hcontinues.phase old hold
  · intro id node hreaches hnode
    rw [reaches_of_shape hshape] at hreaches
    obtain ⟨value, hvalue, hlast, -⟩ := h.continues_of_refresh hframes hroom hok hreaches
    rw [hnode] at hvalue
    cases hvalue
    simp [Node.isStale, hlast]

end PlayedTo

end Rack
end PatchSynth
