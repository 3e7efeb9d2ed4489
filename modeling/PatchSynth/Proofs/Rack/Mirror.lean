import PatchSynth.Proofs.Rack.Room

/-!
This module contains racks that mirror each other: every node of one is a copy of a node of the
other, wired to copies of what that node is wired to. How many copies there are of a node does not
matter. `pulled_mirror` says that a pull of a copy comes to what a pull of its original does.
-/

namespace PatchSynth

structure Node.Twin (origin : Nat → Nat) (node twin : Node) : Prop where
  device_eq : node.device.map origin = twin.device
  range_eq : node.range = twin.range
  buffer_eq : node.buffer = twin.buffer
  phase_eq : node.phase = twin.phase
  last_eq : node.last = twin.last

namespace Node.Twin

variable {origin : Nat → Nat} {node twin : Node}

theorem channels_eq (h : node.Twin origin twin) : node.device.channels = twin.device.channels := by
  rw [← h.device_eq, Device.channels_map]

theorem typeName_eq (h : node.Twin origin twin) : node.device.typeName = twin.device.typeName := by
  rw [← h.device_eq, Device.typeName_map]

theorem isStale_eq (h : node.Twin origin twin) : node.isStale = twin.isStale :=
  Node.isStale_of_last_eq h.last_eq

theorem block_eq (h : node.Twin origin twin) (frames : Nat) :
    node.block frames = twin.block frames := by
  rw [Node.block, Node.block, h.buffer_eq, h.channels_eq]

theorem check_eq (h : node.Twin origin twin) (frames : Nat) :
    node.check frames = twin.check frames := by
  rw [Node.check, Node.check, h.block_eq, h.range_eq, h.typeName_eq]

theorem touch (h : node.Twin origin twin) : node.touch.Twin origin twin.touch :=
  ⟨h.device_eq, h.range_eq, h.buffer_eq, h.phase_eq, h.last_eq⟩

theorem store (h : node.Twin origin twin) (timestamp : Nat) (result : Fill) :
    (node.store timestamp result).Twin origin (twin.store timestamp result) := by
  refine ⟨h.device_eq, h.range_eq, ?_, rfl, rfl⟩
  simp only [Node.store, h.buffer_eq]

theorem recorded (h : node.Twin origin twin) (frames : Nat) :
    (node.recorded frames).2.Twin origin (twin.recorded frames).2 := by
  refine ⟨?_, ?_, ?_, ?_, ?_⟩
  · simpa using h.device_eq
  · simpa using h.range_eq
  · simpa using h.buffer_eq
  · simpa using h.phase_eq
  · simpa using h.last_eq

theorem filled (h : node.Twin origin twin) (request : Request) (result : Fill) :
    (Rack.Step.filled request result node).Twin origin (Rack.Step.filled request result twin) :=
  (h.store request.timestamp result).recorded request.frames

end Node.Twin

namespace Rack

/--
Whether every node of `copy` is a copy of a node of `original`, with the same state as far as `root`
reaches. Nobody records a copy.
-/
structure Mirrors (origin : Nat → Nat) (root : Nat) (copy original : Rack) : Prop where
  wiring : ∀ {id : Nat} {node : Node}, copy.nodes[id]? = some node →
    ∃ twin, original.nodes[origin id]? = some twin ∧
      node.device.map origin = twin.device ∧ node.range = twin.range
  state : ∀ {id : Nat}, copy.Reaches root id →
    ∃ node twin, copy.nodes[id]? = some node ∧ original.nodes[origin id]? = some twin ∧
      node.Twin origin twin ∧ node.recorder = none

theorem checkDemands_map {copy original : Rack} {origin : Nat → Nat} {device : Device Nat}
    (hrange : ∀ input ∈ device.inputs, copy.rangeOf input = original.rangeOf (origin input))
    (htype : ∀ input ∈ device.inputs, copy.typeName input = original.typeName (origin input)) :
    copy.checkDemands device = original.checkDemands (device.map origin) := by
  unfold checkDemands
  rw [Device.demands_map, Device.typeName_map]
  have hmem : ∀ demand ∈ device.demands, demand.1 ∈ device.inputs :=
    fun demand => Device.mem_inputs_of_mem_demands
  generalize device.demands = demands at hmem ⊢
  induction demands with
  | nil => rfl
  | cons demand rest ih =>
    have hinput := hmem demand (List.mem_cons_self ..)
    have hrest := ih fun demand hdemand => hmem demand (List.mem_cons_of_mem _ hdemand)
    simp only [List.map_cons, List.forM, hrange _ hinput, htype _ hinput, hrest]

theorem checkDemands_congr {rack next : Rack} {device : Device Nat}
    (h : ∀ input ∈ device.inputs, next.nodes[input]? = rack.nodes[input]?) :
    next.checkDemands device = rack.checkDemands device := by
  have hsame : next.checkDemands device = rack.checkDemands (device.map fun input => input) := by
    apply checkDemands_map
    · intro input hmem
      simp only [rangeOf, h input hmem]
    · intro input hmem
      simp only [typeName, h input hmem]
  have hmap : (device.map fun input => input) = device := device.map_id
  rw [hsame, hmap]

namespace Mirrors

variable {copy original : Rack} {origin : Nat → Nat} {root : Nat} {request : Request}

theorem rangeOf_eq (h : Mirrors origin root copy original) {id : Nat} {node : Node}
    (hnode : copy.nodes[id]? = some node) : copy.rangeOf id = original.rangeOf (origin id) := by
  obtain ⟨twin, htwin, -, hrange⟩ := h.wiring hnode
  simp only [rangeOf, hnode, htwin, hrange]

theorem typeName_eq (h : Mirrors origin root copy original) {id : Nat} {node : Node}
    (hnode : copy.nodes[id]? = some node) : copy.typeName id = original.typeName (origin id) := by
  obtain ⟨twin, htwin, hdevice, -⟩ := h.wiring hnode
  simp only [Rack.typeName, hnode, htwin, ← hdevice, Device.typeName_map]

theorem isStereo_eq (h : Mirrors origin root copy original) :
    copy.isStereo root = original.isStereo (origin root) := by
  obtain ⟨node, twin, hnode, htwin, htwins, -⟩ := h.state (Reaches.refl copy root)
  simp only [Rack.isStereo, hnode, htwin, ← htwins.device_eq, Device.isStereo_map]

theorem reads (h : Mirrors origin root copy original) {id input : Nat}
    (hreads : copy.Reads id input) : original.Reads (origin id) (origin input) := by
  obtain ⟨node, hnode, hmem⟩ := hreads
  obtain ⟨twin, htwin, hdevice, -⟩ := h.wiring hnode
  refine ⟨twin, htwin, ?_⟩
  rw [← hdevice, Device.reads_map]
  exact List.mem_map_of_mem hmem

theorem reaches (h : Mirrors origin root copy original) {id other : Nat}
    (hreaches : copy.Reaches id other) : original.Reaches (origin id) (origin other) := by
  induction hreaches with
  | refl => exact Reaches.refl original (origin id)
  | tail _ hlast ih => exact ih.tail (h.reads hlast)

theorem exists_input (hcopy : copy.WellFormed) {id : Nat} {node : Node}
    (hnode : copy.nodes[id]? = some node) {input : Nat} (hmem : input ∈ node.device.inputs) :
    ∃ read, copy.nodes[input]? = some read := by
  have hlt := hcopy.inputs_lt hnode input hmem
  obtain ⟨hid, -⟩ := Array.getElem?_eq_some_iff.1 hnode
  exact ⟨copy.nodes[input], Array.getElem?_eq_getElem (by omega)⟩

theorem checkDemands_eq (h : Mirrors origin root copy original) (hcopy : copy.WellFormed) {id : Nat}
    {node twin : Node} (hnode : copy.nodes[id]? = some node)
    (htwin : node.device.map origin = twin.device) :
    copy.checkDemands node.device = original.checkDemands twin.device := by
  rw [← htwin]
  apply checkDemands_map
  · intro input hmem
    obtain ⟨read, hread⟩ := exists_input hcopy hnode hmem
    exact h.rangeOf_eq hread
  · intro input hmem
    obtain ⟨read, hread⟩ := exists_input hcopy hnode hmem
    exact h.typeName_eq hread

def SameResult (origin : Nat → Nat) : Except Error Node → Except Error Node → Prop
  | .ok node, .ok twin => node.Twin origin twin ∧ node.recorder = none
  | .error e, .error e' => e = e'
  | _, _ => False

theorem sameResult_map {origin : Nat → Nat} {result result' : Except Error Node}
    (h : SameResult origin result result') :
    result.map (fun _ => ()) = result'.map fun _ => () := by
  cases result with
  | ok node =>
    cases result' with
    | ok twin => rfl
    | error e' => cases h
  | error e =>
    cases result' with
    | ok twin => cases h
    | error e' =>
      cases h
      rfl

theorem fill_mirror (h : Mirrors origin root copy original) (hcopy : copy.WellFormed) {id : Nat}
    {node twin : Node} (hnode : copy.nodes[id]? = some node) (htwin : node.Twin origin twin)
    {pull pull' : Nat → Except Error Node}
    (hpull : ∀ input ∈ node.device.reads, SameResult origin (pull input) (pull' (origin input)))
    (hok : ∀ input ∈ node.device.reads, ∃ value, pull input = .ok value) :
    (node.device.map (copy.feedFrom request.frames pull)).fill request node.phase
      = (twin.device.map (original.feedFrom request.frames pull')).fill request twin.phase := by
  rw [← htwin.device_eq, Device.map_map, htwin.phase_eq]
  apply Device.fill_map_congr
  · intro input hmem
    obtain ⟨read, hread⟩ := exists_input hcopy hnode hmem
    exact h.rangeOf_eq hread
  · intro input hmem
    obtain ⟨value, hvalue⟩ := hok input hmem
    have hsame := hpull input hmem
    cases hvalue' : pull' (origin input) with
    | error e => simp [hvalue, hvalue', SameResult] at hsame
    | ok value' =>
      simp only [hvalue, hvalue', SameResult] at hsame
      simp only [feedFrom, Function.comp_apply, hvalue, hvalue', hsame.1.block_eq]

theorem evaluated_mirror (h : Mirrors origin root copy original) (hcopy : copy.WellFormed)
    (horiginal : original.WellFormed) (hframes : request.frames ≤ maxFrames)
    (hroom : original.HasRoom request.frames) {id : Nat} {node twin : Node}
    (hnode : copy.nodes[id]? = some node) (htwinNode : original.nodes[origin id]? = some twin)
    (htwin : node.Twin origin twin) (hrecorder : node.recorder = none)
    {pull pull' : Nat → Except Error Node}
    (hpull : ∀ input ∈ node.device.reads, SameResult origin (pull input) (pull' (origin input))) :
    SameResult origin (copy.evaluated request pull node)
      (original.evaluated request pull' twin) := by
  have hreads : firstError (node.device.reads.map pull)
      = firstError (twin.device.reads.map pull') := by
    rw [← htwin.device_eq, Device.reads_map, List.map_map]
    apply firstError_map_congr
    intro input hmem
    exact sameResult_map (hpull input hmem)
  unfold evaluated
  rw [h.checkDemands_eq hcopy hnode htwin.device_eq, hreads]
  cases original.checkDemands twin.device with
  | error e => exact rfl
  | ok _ =>
    cases hok : firstError (twin.device.reads.map pull') with
    | error e => exact rfl
    | ok _ =>
      rw [← hreads, firstError_eq_ok_iff] at hok
      rw [h.fill_mirror hcopy hnode htwin hpull fun input hmem =>
        hok _ (List.mem_map_of_mem hmem)]
      cases hfill : (twin.device.map (original.feedFrom request.frames pull')).fill request
          twin.phase with
      | error e => exact rfl
      | ok result =>
        -- Nobody records the copy, and the recorder of the original has room, so that neither
        -- refuses the block.
        have hrecorded : ((node.touch.store request.timestamp result).recorded request.frames).1
            = .ok () := by
          have hnone : (node.touch.store request.timestamp result).recorder = none := hrecorder
          simp only [Node.recorded, hnone]
        have hrecorded' : ((twin.touch.store request.timestamp result).recorded request.frames).1
            = .ok () := by
          apply Node.recorded_of_room _ hframes
          · intro recorder htwinRecorder
            exact hroom _ twin recorder htwinNode htwinRecorder
          · exact Node.sound_store (horiginal.sound htwinNode).touch hframes hfill
        have hcheck := (htwin.store request.timestamp result).check_eq request.frames
        simp only [bind, Except.bind, hrecorded, hrecorded', hcheck]
        cases (twin.store request.timestamp result).check request.frames with
        | error e => exact rfl
        | ok _ =>
          refine ⟨htwin.touch.filled request result, ?_⟩
          rw [recorder_filled]
          simp [Node.touch, hrecorder]

theorem pulled_mirror (h : Mirrors origin root copy original) (hcopy : copy.WellFormed)
    (horiginal : original.WellFormed) (hframes : request.frames ≤ maxFrames)
    (hroom : original.HasRoom request.frames) (id : Nat) (hreaches : copy.Reaches root id) :
    SameResult origin (copy.pulled request id) (original.pulled request (origin id)) := by
  induction id using Nat.strongRecOn with
  | ind id ih =>
    obtain ⟨node, twin, hnode, htwinNode, htwin, hrecorder⟩ := h.state hreaches
    cases hstale : node.isStale request.timestamp with
    | false =>
      have hstale' : twin.isStale request.timestamp = false := by rw [← htwin.isStale_eq, hstale]
      rw [pulled_of_fresh hnode hstale, pulled_of_fresh htwinNode hstale']
      exact ⟨htwin, hrecorder⟩
    | true =>
      have hstale' : twin.isStale request.timestamp = true := by rw [← htwin.isStale_eq, hstale]
      rw [pulled_of_stale hnode hstale, pulled_of_stale htwinNode hstale']
      apply h.evaluated_mirror hcopy horiginal hframes hroom hnode htwinNode htwin hrecorder
      intro input hmem
      have hlt := hcopy.inputs_lt hnode input (Device.mem_inputs_of_mem_reads hmem)
      have hlt' : origin input < origin id := by
        apply horiginal.inputs_lt htwinNode
        rw [← htwin.device_eq, Device.inputs_map]
        exact List.mem_map_of_mem (Device.mem_inputs_of_mem_reads hmem)
      rw [pulledBelow_of_lt hlt, pulledBelow_of_lt hlt']
      exact ih input hlt (hreaches.tail ⟨node, hnode, hmem⟩)

theorem refresh (h : Mirrors origin root copy original) (hcopy : copy.WellFormed)
    (horiginal : original.WellFormed) (hframes : request.frames ≤ maxFrames)
    (hroom : original.HasRoom request.frames) (hok : (copy.refresh request root).1 = .ok ())
    (hok' : (original.refresh request (origin root)).1 = .ok ()) :
    Mirrors origin root (copy.refresh request root).2
      (original.refresh request (origin root)).2 := by
  have hshape := shape_refresh request copy root
  have hshape' := shape_refresh request original (origin root)
  refine ⟨?_, ?_⟩
  · intro id node hnode
    obtain ⟨old, hold, hdevice, hrange⟩ := exists_of_shape hshape hnode
    obtain ⟨twin, htwin, hwiring, hrange'⟩ := h.wiring hold
    obtain ⟨next, hnext, hnextDevice, hnextRange⟩ := exists_of_shape hshape'.symm htwin
    refine ⟨next, hnext, ?_, ?_⟩
    · rw [← hdevice, hwiring, hnextDevice]
    · rw [← hrange, hrange', hnextRange]
  · intro id hreaches
    rw [reaches_of_shape hshape] at hreaches
    obtain ⟨value, hvalue, hnode⟩ := hcopy.exists_pulled_of_reaches hframes hok hreaches
    obtain ⟨value', hvalue', hnode'⟩ :=
      horiginal.exists_pulled_of_reaches hframes hok' (h.reaches hreaches)
    have hsame := h.pulled_mirror hcopy horiginal hframes hroom id hreaches
    rw [hvalue, hvalue'] at hsame
    exact ⟨value, value', hnode, hnode', hsame.1, hsame.2⟩

end Mirrors
end Rack
end PatchSynth
