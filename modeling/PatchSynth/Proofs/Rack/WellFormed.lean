import PatchSynth.Proofs.Rack.Step
import PatchSynth.Proofs.Wav.File
import PatchSynth.Rack.Record

/-!
This module contains what holds of every rack that comes about by building nodes, pulling them and
recording them: inputs stand before the nodes that read them, buffers have room for the largest
block, and no node has a newer block than a node that it reads.
-/

namespace PatchSynth

structure Node.Sound (node : Node) : Prop where
  size_buffer : node.buffer.size = maxFrames * node.device.channels
  inOrder : ∀ recorder, node.recorder = some recorder → recorder.InOrder node.device.channels
  buffer_constant : ∀ value, node.device = .constant value →
    node.buffer = Array.replicate maxFrames value
  unplayed : node.last = none →
    node.phase = 0 ∧
      node.buffer = Array.replicate (maxFrames * node.device.channels) node.device.initialSample ∧
      ∀ recorder, node.recorder = some recorder → recorder.written = 0

namespace Node

theorem isStale_eq_false_iff {node : Node} {timestamp : Nat} :
    node.isStale timestamp = false ↔ ∃ last, node.last = some last ∧ timestamp ≤ last := by
  unfold isStale
  cases node.last with
  | none => simp
  | some last => simp

theorem isStale_eq_true_iff {node : Node} {timestamp : Nat} :
    node.isStale timestamp = true ↔ ∀ last, node.last = some last → last < timestamp := by
  unfold isStale
  cases node.last with
  | none => simp
  | some last => simp

theorem isStale_of_last_eq {node other : Node} (h : node.last = other.last) :
    node.isStale = other.isStale := by
  funext timestamp
  unfold isStale
  rw [h]

theorem size_block {node : Node} (h : node.Sound) {frames : Nat} (hframes : frames ≤ maxFrames) :
    (node.block frames).size = frames * node.device.channels := by
  have := Nat.mul_le_mul_right node.device.channels hframes
  simp only [block, Array.size_extract, h.size_buffer]
  omega

theorem whole_block {node : Node} (h : node.Sound) {frames : Nat} (hframes : frames ≤ maxFrames) :
    (node.block frames).size % node.device.channels = 0 := by
  rw [size_block h hframes]
  exact Nat.mul_mod_left _ _

theorem block_store {node : Node} {frames : Nat} (timestamp : Nat) {fill : Fill}
    (hsize : fill.samples.size = frames * node.device.channels) :
    (node.store timestamp fill).block frames = fill.samples := by
  have hchannels : (node.store timestamp fill).device.channels = node.device.channels := rfl
  rw [block, hchannels, ← hsize]
  simp [Node.store]

namespace Sound

theorem touch {node : Node} (h : node.Sound) : node.touch.Sound :=
  ⟨h.size_buffer, h.inOrder, h.buffer_constant, h.unplayed⟩

theorem store {node : Node} (h : node.Sound) {timestamp : Nat} {result : Fill}
    (hsize : result.samples.size ≤ maxFrames * node.device.channels)
    (hconstant : ∀ value, node.device = .constant value → result.samples = #[]) :
    (node.store timestamp result).Sound := by
  refine ⟨?_, h.inOrder, ?_, ?_⟩
  · have := h.size_buffer
    simp only [Node.store, Array.size_append, Array.size_extract]
    omega
  · intro value hvalue
    simp only [Node.store, hconstant value hvalue]
    simpa using h.buffer_constant value hvalue
  · intro hlast
    cases hlast

theorem recorded {node : Node} (h : node.Sound) {frames : Nat} (hframes : frames ≤ maxFrames)
    (hlast : node.last ≠ none) : (node.recorded frames).2.Sound := by
  refine ⟨?_, ?_, ?_, ?_⟩
  · simpa using h.size_buffer
  · intro recorder hrecorder
    rw [recorder_recorded, Option.map_eq_some_iff] at hrecorder
    obtain ⟨old, hold, rfl⟩ := hrecorder
    rw [device_recorded]
    apply Recorder.inOrder_take (h.inOrder old hold)
    exact whole_block h hframes
  · simpa using h.buffer_constant
  · intro hnone
    rw [last_recorded] at hnone
    exact absurd hnone hlast

end Sound

theorem sound_store {node : Node} (h : node.Sound) {request : Request} {f : Nat → Feed}
    {result : Fill} (hframes : request.frames ≤ maxFrames)
    (hfill : (node.device.map f).fill request node.phase = .ok result) :
    (node.store request.timestamp result).Sound := by
  apply h.store
  · have hsize := Device.size_samples_fill hfill
    rw [Device.channels_map] at hsize
    exact Nat.le_trans hsize (Nat.mul_le_mul_right _ hframes)
  · intro value hvalue
    rw [hvalue] at hfill
    cases hfill
    rfl

theorem sound_filled {node : Node} (h : node.Sound) {request : Request} {f : Nat → Feed}
    {result : Fill} (hframes : request.frames ≤ maxFrames)
    (hfill : (node.device.map f).fill request node.phase = .ok result) :
    (Rack.Step.filled request result node).Sound := by
  unfold Rack.Step.filled
  apply (sound_store h hframes hfill).recorded hframes
  intro hnone
  cases hnone

end Node

namespace Rack

structure WellFormed (rack : Rack) : Prop where
  sound : ∀ {id : Nat} {node : Node}, rack.nodes[id]? = some node → node.Sound
  inputs_lt : ∀ {id : Nat} {node : Node}, rack.nodes[id]? = some node →
    ∀ input ∈ node.device.inputs, input < id
  range_eq : ∀ {id : Nat} {node : Node}, rack.nodes[id]? = some node →
    node.range = (node.device.map rack.rangeOf).range
  clocks : ∀ {id : Nat} {node : Node}, rack.nodes[id]? = some node →
    ∀ input ∈ node.device.reads, ∀ timestamp, node.isStale timestamp = false →
      rack.IsCurrent timestamp input

def Unplayed (rack : Rack) : Prop :=
  ∀ (id : Nat) (node : Node), rack.nodes[id]? = some node → node.last = none ∧ node.fills = 0

def fresh (rack : Rack) (device : Device Nat) : Node :=
  { device
    range := (device.map rack.rangeOf).range
    buffer := Array.replicate (maxFrames * device.channels) device.initialSample }

variable {rack next : Rack} {request : Request} {id : Nat}

theorem getElem?_add_size (rack : Rack) (device : Device Nat) :
    (rack.add device).2.nodes[rack.nodes.size]? = some (rack.fresh device) := by
  simp [add, fresh]

theorem nodes_add_cases {device : Device Nat} {node : Node}
    (h : (rack.add device).2.nodes[id]? = some node) :
    (id < rack.nodes.size ∧ rack.nodes[id]? = some node) ∨
      (id = rack.nodes.size ∧ node = rack.fresh device) := by
  obtain ⟨hlt, -⟩ := Array.getElem?_eq_some_iff.1 h
  rw [size_nodes_add] at hlt
  by_cases hid : id < rack.nodes.size
  · rw [getElem?_add_of_lt rack device hid] at h
    exact Or.inl ⟨hid, h⟩
  · have hid : id = rack.nodes.size := by omega
    subst hid
    rw [getElem?_add_size] at h
    cases h
    exact Or.inr ⟨rfl, rfl⟩

theorem Unplayed.empty (files : Files) : Unplayed { files } := by
  intro id node hnode
  simp at hnode

theorem Unplayed.add (h : rack.Unplayed) (device : Device Nat) : (rack.add device).2.Unplayed := by
  intro id node hnode
  obtain ⟨-, hnode⟩ | ⟨-, rfl⟩ := nodes_add_cases hnode
  · exact h id node hnode
  · exact ⟨rfl, rfl⟩

theorem Unplayed.isStale (h : rack.Unplayed) {node : Node} (hnode : rack.nodes[id]? = some node)
    (timestamp : Nat) : node.isStale timestamp = true := by
  have hnone : node.last = none := (h id node hnode).1
  rw [Node.isStale, hnone]

theorem IsCurrent.older {timestamp earlier : Nat} (h : rack.IsCurrent timestamp id)
    (hle : earlier ≤ timestamp) : rack.IsCurrent earlier id := by
  obtain ⟨node, hnode, hfresh⟩ := h
  rw [Node.isStale_eq_false_iff] at hfresh
  obtain ⟨last, hlast, hle'⟩ := hfresh
  refine ⟨node, hnode, ?_⟩
  rw [Node.isStale_eq_false_iff]
  exact ⟨last, hlast, by omega⟩

theorem Step.isCurrent (h : Step request id rack next) {timestamp other : Nat}
    (hcurrent : rack.IsCurrent timestamp other) : next.IsCurrent timestamp other := by
  -- The timestamp is any one here, and the block that replaces an older one is newer than that.
  by_cases hid : id = other
  · subst hid
    obtain ⟨node, hnode, hfresh⟩ := hcurrent
    obtain ⟨stale, hstale, htrue, htouch | ⟨result, -, -, hfill⟩⟩ := h.nodes_cases
    · rw [hnode] at hstale
      cases hstale
      exact ⟨node.touch, by rw [htouch, if_pos rfl], hfresh⟩
    · rw [hnode] at hstale
      cases hstale
      refine ⟨Step.filled request result node, by rw [hfill, if_pos rfl], ?_⟩
      rw [Node.isStale_eq_false_iff] at *
      rw [Node.isStale_eq_true_iff] at htrue
      obtain ⟨last, hlast, hle⟩ := hfresh
      have := htrue last hlast
      refine ⟨request.timestamp, ?_, by omega⟩
      simp [Step.filled, Node.store]
  · obtain ⟨node, hnode, hfresh⟩ := hcurrent
    exact ⟨node, by rw [h.nodes_of_ne hid, hnode], hfresh⟩

namespace WellFormed

theorem step (h : rack.WellFormed) (hframes : request.frames ≤ maxFrames)
    (hstep : Step request id rack next) : next.WellFormed := by
  have hshape := hstep.shape_eq
  have hold : ∀ {other : Nat} {node : Node}, next.nodes[other]? = some node →
      ∃ old, rack.nodes[other]? = some old ∧ old.device = node.device ∧ old.range = node.range :=
    fun hnode => exists_of_shape hshape hnode
  refine ⟨?_, ?_, ?_, ?_⟩
  · intro other node hnode
    by_cases hid : id = other
    · subst hid
      obtain ⟨stale, hstale, -, htouch | ⟨result, -, hresult, hfill⟩⟩ := hstep.nodes_cases
      · rw [htouch, if_pos rfl] at hnode
        cases hnode
        exact (h.sound hstale).touch
      · rw [hfill, if_pos rfl] at hnode
        cases hnode
        exact Node.sound_filled (h.sound hstale) hframes hresult
    · rw [hstep.nodes_of_ne hid] at hnode
      exact h.sound hnode
  · intro other node hnode
    obtain ⟨old, hnode, hdevice, -⟩ := hold hnode
    rw [← hdevice]
    exact h.inputs_lt hnode
  · intro other node hnode
    obtain ⟨old, hnode, hdevice, hrange⟩ := hold hnode
    rw [← hdevice, ← hrange, rangeOf_of_shape hshape]
    exact h.range_eq hnode
  · intro other node hnode input hmem timestamp hfresh
    apply hstep.isCurrent
    by_cases hid : id = other
    · subst hid
      obtain ⟨stale, hstale, -, htouch | ⟨result, hreads, -, hfill⟩⟩ := hstep.nodes_cases
      · rw [htouch, if_pos rfl] at hnode
        cases hnode
        exact h.clocks hstale input hmem timestamp hfresh
      · rw [hfill, if_pos rfl] at hnode
        cases hnode
        -- The reads were current when the node was filled, and its own block is no newer than that.
        rw [Node.isStale_eq_false_iff] at hfresh
        obtain ⟨last, hlast, hle⟩ := hfresh
        have hlast : request.timestamp = last := by
          simpa [Step.filled, Node.store] using hlast
        subst hlast
        have hmem : input ∈ stale.device.reads := by
          simpa [Step.filled, Node.store] using hmem
        exact (hreads input hmem).older hle
    · rw [hstep.nodes_of_ne hid] at hnode
      exact h.clocks hnode input hmem timestamp hfresh

theorem steps {among : Nat → Prop} (h : rack.WellFormed) (hframes : request.frames ≤ maxFrames)
    (hsteps : Steps request among rack next) : next.WellFormed := by
  apply hsteps.keep (P := WellFormed)
  · intro id current next hid hstep hcurrent
    exact hcurrent.step hframes hstep
  · exact h

theorem refresh (h : rack.WellFormed) (hframes : request.frames ≤ maxFrames) (id : Nat) :
    (rack.refresh request id).2.WellFormed :=
  h.steps hframes (steps_refresh request id rack).1

theorem of_nodes_eq {other : Rack} (h : rack.WellFormed) (hnodes : other.nodes = rack.nodes) :
    other.WellFormed := by
  have hrange : other.rangeOf = rack.rangeOf := by
    funext id
    simp only [rangeOf, hnodes]
  refine ⟨?_, ?_, ?_, ?_⟩
  · intro id node hnode
    rw [hnodes] at hnode
    exact h.sound hnode
  · intro id node hnode
    rw [hnodes] at hnode
    exact h.inputs_lt hnode
  · intro id node hnode
    rw [hnodes] at hnode
    rw [hrange]
    exact h.range_eq hnode
  · intro id node hnode input hmem timestamp hfresh
    rw [hnodes] at hnode
    obtain ⟨node, hnode, hfresh⟩ := h.clocks hnode input hmem timestamp hfresh
    exact ⟨node, by rw [hnodes, hnode], hfresh⟩

theorem update_recorder (h : rack.WellFormed) {id : Nat} {recorder : Option Recorder}
    (hrecorder : ∀ node taken, rack.nodes[id]? = some node → recorder = some taken →
      taken.InOrder node.device.channels ∧ taken.written = 0) :
    (rack.update id fun node => { node with recorder := recorder }).WellFormed := by
  have hshape : (rack.update id fun node => { node with recorder := recorder }).shape
      = rack.shape :=
    shape_update fun _ => ⟨rfl, rfl⟩
  have hcurrent : ∀ {timestamp other : Nat}, rack.IsCurrent timestamp other →
      (rack.update id fun node => { node with recorder := recorder }).IsCurrent timestamp
        other := by
    intro timestamp other hcurrent
    obtain ⟨node, hnode, hfresh⟩ := hcurrent
    unfold IsCurrent
    rw [getElem?_update, hnode]
    split
    · exact ⟨_, rfl, hfresh⟩
    · exact ⟨_, rfl, hfresh⟩
  refine ⟨?_, ?_, ?_, ?_⟩
  · intro other node hnode
    obtain ⟨old, hold, rfl | ⟨rfl, rfl⟩⟩ := nodes_update_cases hnode
    · exact h.sound hold
    · have hsound := h.sound hold
      refine ⟨hsound.size_buffer, ?_, hsound.buffer_constant, ?_⟩
      · intro taken htaken
        exact (hrecorder old taken hold htaken).1
      · intro hlast
        obtain ⟨hphase, hbuffer, -⟩ := hsound.unplayed hlast
        exact ⟨hphase, hbuffer, fun taken htaken => (hrecorder old taken hold htaken).2⟩
  · intro other node hnode
    obtain ⟨old, hold, rfl | ⟨rfl, rfl⟩⟩ := nodes_update_cases hnode
    · exact h.inputs_lt hold
    · have := h.inputs_lt hold
      exact this
  · intro other node hnode
    rw [rangeOf_of_shape hshape]
    obtain ⟨old, hold, rfl | ⟨rfl, rfl⟩⟩ := nodes_update_cases hnode
    · exact h.range_eq hold
    · have := h.range_eq hold
      exact this
  · intro other node hnode input hmem timestamp hfresh
    apply hcurrent
    obtain ⟨old, hold, rfl | ⟨rfl, rfl⟩⟩ := nodes_update_cases hnode
    · exact h.clocks hold input hmem timestamp hfresh
    · have := h.clocks hold input hmem timestamp hfresh
      exact this

theorem empty (files : Files) : WellFormed { files } := by
  refine ⟨?_, ?_, ?_, ?_⟩ <;> intro id node hnode <;> simp at hnode

theorem rangeOf_add_of_lt (device : Device Nat) {id : Nat} (h : id < rack.nodes.size) :
    (rack.add device).2.rangeOf id = rack.rangeOf id := by
  unfold rangeOf
  rw [getElem?_add_of_lt rack device h]

theorem sound_fresh (rack : Rack) (device : Device Nat) : (rack.fresh device).Sound := by
  refine ⟨by simp [fresh], ?_, ?_, ?_⟩
  · intro recorder hrecorder
    cases hrecorder
  · intro value hvalue
    have hdevice : device = .constant value := hvalue
    subst hdevice
    simp [fresh, Device.channels, Device.isStereo, Device.initialSample]
  · intro hlast
    refine ⟨rfl, rfl, ?_⟩
    intro recorder hrecorder
    cases hrecorder

theorem add (h : rack.WellFormed) {device : Device Nat}
    (hinputs : ∀ input ∈ device.inputs, input < rack.nodes.size) :
    (rack.add device).2.WellFormed := by
  have hrange : ∀ {device' : Device Nat}, (∀ input ∈ device'.inputs, input < rack.nodes.size) →
      device'.map (rack.add device).2.rangeOf = device'.map rack.rangeOf := by
    intro device' hlt
    apply Device.map_congr
    intro input hmem
    exact rangeOf_add_of_lt device (hlt input hmem)
  refine ⟨?_, ?_, ?_, ?_⟩
  · intro id node hnode
    obtain ⟨-, hnode⟩ | ⟨-, rfl⟩ := nodes_add_cases hnode
    · exact h.sound hnode
    · exact sound_fresh rack device
  · intro id node hnode
    obtain ⟨-, hnode⟩ | ⟨rfl, rfl⟩ := nodes_add_cases hnode
    · exact h.inputs_lt hnode
    · exact hinputs
  · intro id node hnode
    obtain ⟨hlt, hnode⟩ | ⟨rfl, rfl⟩ := nodes_add_cases hnode
    · rw [hrange]
      · exact h.range_eq hnode
      · intro input hmem
        have := h.inputs_lt hnode input hmem
        omega
    · have hmap := hrange hinputs
      simp only [fresh, hmap]
  · intro id node hnode input hmem timestamp hfresh
    obtain ⟨hlt, hnode⟩ | ⟨rfl, rfl⟩ := nodes_add_cases hnode
    · have hlt' := h.inputs_lt hnode input (Device.mem_inputs_of_mem_reads hmem)
      obtain ⟨read, hread, hfresh⟩ := h.clocks hnode input hmem timestamp hfresh
      exact ⟨read, by rw [getElem?_add_of_lt rack device (by omega), hread], hfresh⟩
    · simp [Node.isStale, fresh] at hfresh

end WellFormed

theorem nodes_output (request : Request) (id : Nat) (rack : Rack) :
    (rack.output request id).2
      = (rack.refresh { request with frames := min request.frames maxFrames } id).2 := by
  unfold output
  dsimp only
  split
  next h => rw [h]
  next h => rw [h]

theorem fst_output (request : Request) (id : Nat) (rack : Rack) :
    (rack.output request id).1 =
      (rack.refresh { request with frames := min request.frames maxFrames } id).1.map fun _ =>
        (rack.refresh { request with frames := min request.frames maxFrames } id).2.blockOf id
          (min request.frames maxFrames) := by
  unfold output
  dsimp only
  split
  next h => simp [h, Except.map]
  next h => simp [h, Except.map]

theorem snd_record_cases (rack : Rack) (id : Nat) (path : String) (scaler : Float32) :
    (rack.record id path scaler).2 = rack ∨
      ∃ node recorder files, rack.nodes[id]? = some node ∧
        Recorder.create rack.files path node.device.channels scaler = .ok (recorder, files) ∧
        (rack.record id path scaler).2
          = { rack.update id fun node => { node with recorder := some recorder } with files } := by
  unfold Rack.record
  split
  next => exact Or.inl rfl
  next node hnode =>
    split
    next => exact Or.inl rfl
    next =>
      split
      next => exact Or.inl rfl
      next recorder files hcreate => exact Or.inr ⟨node, recorder, files, hnode, hcreate, rfl⟩

theorem snd_stop_cases (rack : Rack) (id : Nat) :
    (rack.stop id).2 = rack ∨
      ∃ files, (rack.stop id).2
        = { rack.update id fun node => { node with recorder := none } with files } := by
  unfold Rack.stop
  split
  next => exact Or.inl rfl
  next => exact Or.inr ⟨_, rfl⟩

theorem shape_update_recorder (rack : Rack) (id : Nat) (recorder : Option Recorder) :
    (rack.update id fun node => { node with recorder := recorder }).shape = rack.shape :=
  shape_update fun _ => ⟨rfl, rfl⟩

theorem shape_snd_record (rack : Rack) (id : Nat) (path : String) (scaler : Float32) :
    (rack.record id path scaler).2.shape = rack.shape := by
  obtain heq | ⟨_, recorder, files, -, -, heq⟩ := rack.snd_record_cases id path scaler
  · rw [heq]
  · rw [heq]
    exact shape_update_recorder rack id (some recorder)

theorem shape_stop (rack : Rack) (id : Nat) : (rack.stop id).2.shape = rack.shape := by
  obtain heq | ⟨files, heq⟩ := rack.snd_stop_cases id
  · rw [heq]
  · rw [heq]
    exact shape_update_recorder rack id none

namespace WellFormed

theorem output (h : rack.WellFormed) (request : Request) (id : Nat) :
    (rack.output request id).2.WellFormed := by
  rw [nodes_output]
  exact h.refresh (Nat.min_le_right _ _) id

theorem record (h : rack.WellFormed) (id : Nat) (path : String) (scaler : Float32) :
    (rack.record id path scaler).2.WellFormed := by
  obtain heq | ⟨node, recorder, files, hnode, hcreate, heq⟩ := rack.snd_record_cases id path scaler
  · rw [heq]
    exact h
  · have hupdate : (rack.update id fun node =>
        { node with recorder := some recorder }).WellFormed := by
      apply h.update_recorder
      intro found taken hfound htaken
      rw [hnode] at hfound
      cases hfound
      cases htaken
      exact Recorder.inOrder_create hcreate
    rw [heq]
    exact hupdate.of_nodes_eq rfl

theorem stop (h : rack.WellFormed) (id : Nat) : (rack.stop id).2.WellFormed := by
  obtain heq | ⟨files, heq⟩ := rack.snd_stop_cases id
  · rw [heq]
    exact h
  · have hupdate : (rack.update id fun node => { node with recorder := none }).WellFormed := by
      apply h.update_recorder
      intro found taken hfound htaken
      cases htaken
    rw [heq]
    exact hupdate.of_nodes_eq rfl

end WellFormed

/--
The racks that come about from one by building nodes on nodes that stand, pulling them, and starting
and stopping their recordings.
-/
inductive Later (base : Rack) : Rack → Prop where
  | refl : Later base base
  | add {rack : Rack} {device : Device Nat} (h : Later base rack)
      (hinputs : ∀ input ∈ device.inputs, input < rack.nodes.size) : Later base (rack.add device).2
  | output {rack : Rack} (h : Later base rack) (request : Request) (id : Nat) :
      Later base (rack.output request id).2
  | record {rack : Rack} (h : Later base rack) (id : Nat) (path : String) (scaler : Float32) :
      Later base (rack.record id path scaler).2
  | stop {rack : Rack} (h : Later base rack) (id : Nat) : Later base (rack.stop id).2

theorem Later.wellFormed {base : Rack} (h : Later base rack) (hbase : base.WellFormed) :
    rack.WellFormed := by
  induction h with
  | refl => exact hbase
  | add _ hinputs ih => exact ih.add hinputs
  | output _ request id ih => exact ih.output request id
  | record _ id path scaler ih => exact ih.record id path scaler
  | stop _ id ih => exact ih.stop id

def Reachable (rack : Rack) : Prop :=
  ∃ files, Later { files } rack

theorem Reachable.empty (files : Files) : Reachable { files } :=
  ⟨files, Later.refl⟩

theorem Reachable.add (h : rack.Reachable) {device : Device Nat}
    (hinputs : ∀ input ∈ device.inputs, input < rack.nodes.size) :
    (rack.add device).2.Reachable := by
  obtain ⟨files, h⟩ := h
  exact ⟨files, h.add hinputs⟩

theorem Reachable.wellFormed (h : rack.Reachable) : rack.WellFormed := by
  obtain ⟨files, h⟩ := h
  exact h.wellFormed (WellFormed.empty files)

end Rack
end PatchSynth
