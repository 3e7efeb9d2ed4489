import PatchSynth.Proofs.Signal.Block
import PatchSynth.Proofs.Studio.Cache

/-!
This module contains that an evaluation writes the whole block that it is asked for. What the buffer
of the node held before does not get into the block, however long or short the earlier blocks were,
and all that stands behind the block stays.
-/

namespace PatchSynth

namespace Filling

variable {filling : Filling} {id : Nat}

theorem Genuine.buffer_of_constant (h : filling.Genuine id) {value : Float32}
    (hvalue : filling.before.device = .constant value) :
    filling.before.buffer = Array.replicate maxFrames value ∧
      filling.after.buffer = Array.replicate maxFrames value := by
  have hafter := (h.wellFormed.sound h.node_eq).buffer_constant value (h.device_eq.trans hvalue)
  refine ⟨?_, hafter⟩
  obtain ⟨result, fills, hfill, heq⟩ := h.filledAs.fill
  rw [hvalue] at hfill
  cases hfill
  rw [← hafter, heq]
  simp [Rack.Step.filled, Node.store]

theorem Genuine.block_eq_window (h : filling.Genuine id) (hwired : filling.rack.Wired) :
    filling.block
      = ((filling.before.device.map (filling.rack.feed filling.request.frames)).signalFrom
          filling.request.controls filling.before.phase).window 0
            (filling.request.frames * filling.before.device.channels) := by
  by_cases hconstant : ∃ value, filling.before.device = .constant value
  · obtain ⟨value, hvalue⟩ := hconstant
    obtain ⟨-, hbuffer⟩ := h.buffer_of_constant hvalue
    have hframes : min filling.request.frames maxFrames = filling.request.frames :=
      Nat.min_eq_left h.frames_le
    simp only [hvalue, Device.map, Device.signalFrom, Signal.window_const, block, Node.block,
      hbuffer, h.device_eq]
    simp [Device.channels, Device.isStereo, hframes]
  · have hcomputed := h.computed_eq hwired fun value hvalue => hconstant ⟨value, hvalue⟩
    obtain ⟨hstandard, hchannels⟩ := hwired.wellTyped id filling.after h.node_eq
    rw [h.device_eq] at hstandard hchannels
    obtain ⟨result, fills, hfill, -⟩ := h.filledAs.fill
    rw [computed, hfill] at hcomputed
    rw [← Except.ok.inj hcomputed, ← Device.channels_map (filling.rack.feed filling.request.frames)]
    apply Device.samples_fill_eq_window (by simpa using hstandard)
    · intro value hvalue
      exact hconstant ⟨value, Device.map_eq_constant_iff.1 hvalue⟩
    · exact h.filledAs.size_feeds h.frames_le h.wellFormed hstandard hchannels
    · exact hfill

theorem Genuine.buffer_eq_append (h : filling.Genuine id) (hwired : filling.rack.Wired) :
    filling.after.buffer
      = filling.block
        ++ filling.before.buffer.extract filling.block.size filling.before.buffer.size := by
  by_cases hconstant : ∃ value, filling.before.device = .constant value
  · -- A constant writes nothing, and its buffer holds the value from the start.
    obtain ⟨value, hvalue⟩ := hconstant
    obtain ⟨hbefore, hafter⟩ := h.buffer_of_constant hvalue
    have hblock := h.block_eq_window hwired
    have hframes : filling.request.frames + (maxFrames - filling.request.frames) = maxFrames :=
      Nat.add_sub_cancel' h.frames_le
    simp only [hvalue, Device.map, Device.signalFrom, Signal.window_const] at hblock
    rw [hblock, hbefore, hafter]
    simp [Device.channels, Device.isStereo, hframes]
  · exact h.buffer_eq (h.computed_eq hwired fun value hvalue => hconstant ⟨value, hvalue⟩)

theorem Genuine.isCurrent_input (h : filling.Genuine id) (hwired : filling.rack.Wired) {input : Nat}
    (hmem : input ∈ filling.before.device.inputs) :
    filling.rack.IsCurrent filling.request.timestamp input ∧
      (filling.rack.blockOf input filling.request.frames).size
        = filling.request.frames * filling.before.device.inputChannels := by
  obtain ⟨hstandard, hchannels⟩ := hwired.wellTyped id filling.after h.node_eq
  rw [h.device_eq] at hstandard hchannels
  have hfeeds := h.filledAs.size_feeds h.frames_le h.wellFormed hstandard hchannels
  refine ⟨h.filledAs.reads input (by rwa [Device.reads_eq_inputs hstandard]), ?_⟩
  rw [← Device.inputChannels_map (filling.rack.feed filling.request.frames)]
  apply hfeeds (filling.rack.feed filling.request.frames input)
  rw [Device.inputs_map]
  exact List.mem_map_of_mem hmem

end Filling

namespace Studio

/--
An evaluation writes over the whole block that is asked for. The samples depend on the device, the
phase and the blocks that the inputs hand out then, and not on what the buffer held before, which
stays behind them. The buffer of a constant holds its value everywhere and always.
-/
theorem block_of_output {files : Files} {tasks : List Task} {studio : Studio}
    (hallowed : (fresh files).AllowsAll tasks) (hparsed : ∀ device, .build device ∉ tasks)
    (hstudio : (fresh files).performAll tasks = studio) :
    (∀ {id timestamp frames : Nat} {node : Node} {block : Block} {next : Studio},
      studio.patch.rack.nodes[id]? = some node → node.isStale timestamp = true →
      studio.output id timestamp frames = (.ok block, next) →
        ∃ after, next.patch.rack.nodes[id]? = some after ∧ after.last = some timestamp ∧
          block
            = ((node.device.map (next.patch.rack.feed (min frames maxFrames))).signalFrom
                studio.controls node.phase).window 0
                  (min frames maxFrames * node.device.channels) ∧
          after.buffer = block ++ node.buffer.extract block.size node.buffer.size ∧
          ∀ input ∈ node.device.inputs,
            next.output input timestamp frames
              = (.ok (next.patch.rack.blockOf input (min frames maxFrames)), next) ∧
            (next.patch.rack.blockOf input (min frames maxFrames)).size
              = min frames maxFrames * node.device.inputChannels) ∧
    ∀ {id : Nat} {node : Node} {value : Float32}, studio.patch.rack.nodes[id]? = some node →
      node.device = .constant value → node.buffer = Array.replicate 4000 value := by
  have hstart := reached_fresh files
  have hreached : studio.Reached := hstudio ▸ hstart.performAll hallowed
  have hrack := hreached.reachable.wellFormed
  have hwired : studio.patch.rack.Wired :=
    hstudio ▸ wired_performAll hstart hallowed hparsed (Rack.Wired.empty files)
  refine ⟨?_, ?_⟩
  · intro id timestamp frames node block next hnode hstale houtput
    let request : Request := { timestamp, frames, controls := studio.controls }
    have hresult : (studio.patch.rack.output request id).1 = .ok block :=
      congrArg Prod.fst houtput
    have hnext : next.patch.rack = (studio.patch.rack.output request id).2 :=
      congrArg (·.2.patch.rack) houtput.symm
    have hok := Rack.refresh_of_output hresult
    obtain ⟨filling, -, hgenuine, hrequest, hafter, rfl⟩ :=
      Rack.exists_fillingOf hrack hnode hstale hok
    rw [← hnext] at hafter
    have hfilling : filling.rack.Wired := by
      rw [hafter, hnext]
      exact hwired.of_shape (Rack.shape_output _ request id)
    have hblock : block = filling.block := by
      rw [Rack.fst_output_clamped, hok] at hresult
      have hsame : block = next.patch.rack.blockOf id request.clamped.frames := by
        rw [hnext, Rack.nodes_output_clamped]
        exact (Except.ok.inj hresult).symm
      rw [hsame, Rack.blockOf, ← hafter, hgenuine.node_eq, Filling.block, hrequest]
    have hbuffer := hgenuine.buffer_eq_append hfilling
    have hwindow := hgenuine.block_eq_window hfilling
    have hlast := hgenuine.last_eq
    have hfound := hgenuine.node_eq
    rw [hrequest] at hwindow hlast
    rw [hafter] at hwindow hfound
    rw [hblock]
    refine ⟨filling.after, hfound, hlast, hwindow, hbuffer, ?_⟩
    intro input hmem
    obtain ⟨⟨read, hread, hfresh⟩, hsize⟩ := hgenuine.isCurrent_input hfilling hmem
    rw [hrequest] at hsize
    rw [hafter] at hread hsize
    have hcurrent : read.isStale timestamp = false := by rwa [hrequest] at hfresh
    refine ⟨?_, hsize⟩
    rw [output_of_fresh hread hcurrent, Rack.blockOf, hread]
  · intro id node value hnode hvalue
    exact (hrack.sound hnode).buffer_constant value hvalue

theorem block_of_output_rescaled :
    ∃ studio next node source after block,
      (fresh {}).AllowsAll shortPull ∧ (∀ device, .build device ∉ shortPull) ∧
      (fresh {}).performAll shortPull = studio ∧
      studio.patch.rack.nodes[1]? = some node ∧ node.device = .rescaler 0 200 400 ∧
      node.isStale 1 = true ∧ studio.output 1 1 2 = (.ok block, next) ∧
      next.patch.rack.nodes[1]? = some after ∧
      block
        = ((node.device.map (next.patch.rack.feed 2)).signalFrom studio.controls
            node.phase).window 0 (2 * node.device.channels) ∧
      after.buffer = block ++ node.buffer.extract block.size node.buffer.size ∧
      next.output 0 1 2 = (.ok (next.patch.rack.blockOf 0 2), next) ∧
      studio.patch.rack.nodes[0]? = some source ∧ source.buffer = Array.replicate 4000 1 := by
  have hrack := built_rescaled.reachable.wellFormed
  have hplayed : rescaled.patch.rack.PlayedTo oneFrame.controls 1 0 oneFrame.timestamp :=
    Rack.PlayedTo.of_unplayed hrack built_rescaled.wellTyped built_rescaled.unplayed _ _
  have hshape := Rack.shape_refresh oneFrame rescaled.patch.rack 1
  have hpulled : ((fresh {}).performAll shortPull).patch.rack
      = (rescaled.patch.rack.refresh oneFrame 1).2 :=
    rack_shortPull.trans (Rack.nodes_output_clamped oneFrame 1 rescaled.patch.rack)
  let request : Request := { timestamp := 1, frames := 2, controls := {} }
  -- The two frames go on where the first pull has stopped.
  have hafter : (rescaled.patch.rack.refresh oneFrame 1).2.PlayedTo request.controls 1 1
      request.timestamp :=
    hplayed.refresh (by decide) (built_rescaled.hasRoom _) refresh_rescaled
  have hok : ((rescaled.patch.rack.refresh oneFrame 1).2.refresh request 1).1 = .ok () := by
    rw [hafter.refresh_ok_iff (by decide)
      (hrack.hasRoom_refresh (by decide) (built_rescaled.hasRoom _) refresh_rescaled)
      (by rw [Rack.size_nodes_of_shape hshape, size_rescaled]; decide)]
    intro id _
    exact (Rack.clean_add_iff.1 ((clean_rescaled (1 + 2) id).of_shape hshape)).2
  obtain ⟨source, hsource, hsourceDevice, -⟩ := Rack.exists_of_getElem?_shape
    ((congrArg (·[0]?) hshape).trans source_rescaled)
  obtain ⟨node, hnode, hdevice, -⟩ := Rack.exists_of_getElem?_shape
    ((congrArg (·[1]?) hshape).trans rescaler_rescaled)
  have hstale : node.isStale 1 = true := hafter.stale (Rack.Reaches.refl _ 1) hnode
  rw [← hpulled] at hok hnode hsource
  have hcontrols : ((fresh {}).performAll shortPull).controls = {} := by
    rw [shortPull, performAll, List.foldl_cons, List.foldl_cons, List.foldl_nil, ← rescaled,
      controls_perform_output, controls_rescaled]
  have hrequest : request = { timestamp := 1, frames := min 2 maxFrames, controls :=
      ((fresh {}).performAll shortPull).controls } := by
    rw [hcontrols]
    rfl
  have houtput := output_eq _ 1 1 2 hrequest
  rw [hok] at houtput
  obtain ⟨hblocks, hconstants⟩ := block_of_output allowsAll_shortPull parsed_shortPull rfl
  obtain ⟨after, hfound, -, hblock, hbuffer, hinputs⟩ := hblocks hnode hstale houtput
  have hinput : 0 ∈ node.device.inputs := by
    rw [hdevice]
    exact List.mem_singleton_self 0
  exact ⟨_, _, node, source, after, _, allowsAll_shortPull, parsed_shortPull, rfl, hnode, hdevice,
    hstale, houtput, hfound, hblock, hbuffer, (hinputs 0 hinput).1, hsource,
    hconstants hsource hsourceDevice⟩

end Studio
end PatchSynth
