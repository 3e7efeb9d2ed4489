import PatchSynth.Proofs.Rack.Tape
import PatchSynth.Proofs.Signal.Rack

/-!
This module contains what a pull does to the nodes that it fills. They form a list without
repetitions: each of them has the block that its device computes from the blocks of its inputs, and
all other nodes are as they were. The blocks go to the recorders in the order of the list.
-/

namespace PatchSynth

def Request.clamped (request : Request) : Request :=
  { request with frames := min request.frames maxFrames }

namespace Rack

variable {request : Request} {base current next : Rack} {id root : Nat} {node : Node}

def tape (base next : Rack) (frames : Nat) (files : Files) (id : Nat) : Files :=
  match base.nodes[id]?.bind (·.recorder) with
  | none => files
  | some recorder => (recorder.writeBlock (next.blockOf id frames) files).2.2

structure FilledAs (request : Request) (next : Rack) (before after : Node) : Prop where
  stale : before.isStale request.timestamp = true
  reads : ∀ input ∈ before.device.reads, next.IsCurrent request.timestamp input
  fill : ∃ result fills,
    (before.device.map (next.feed request.frames)).fill request before.phase = .ok result ∧
      after = { Step.filled request result before with fills := fills }

/--
What a pull has done so far: these nodes were filled one after the other, and no others.
-/
structure HasFilled (request : Request) (base current : Rack) (filled : List Nat) : Prop where
  shape_eq : current.shape = base.shape
  nodup : filled.Nodup
  kept : ∀ {id before}, id ∉ filled → base.nodes[id]? = some before →
    ∃ fills, current.nodes[id]? = some { before with fills := fills }
  of_mem : ∀ {id}, id ∈ filled → ∃ before after, base.nodes[id]? = some before ∧
    current.nodes[id]? = some after ∧ FilledAs request current before after
  files_eq : current.files = filled.foldl (base.tape current request.frames) base.files

theorem fresh_of_filledAs {before after : Node} (h : FilledAs request next before after) :
    after.isStale request.timestamp = false := by
  obtain ⟨result, fills, -, rfl⟩ := h.fill
  exact isStale_filled request result before

theorem FilledAs.step {before after : Node} (h : FilledAs request current before after)
    (hstep : Step request id current next) : FilledAs request next before after := by
  refine ⟨h.stale, fun input hmem => hstep.isCurrent (h.reads input hmem), ?_⟩
  obtain ⟨result, fills, hfill, hafter⟩ := h.fill
  refine ⟨result, fills, ?_, hafter⟩
  rw [← hfill]
  apply Device.fill_map_congr
  · intro input _
    simp only [feed, rangeOf_of_shape hstep.shape_eq]
  · intro input hmem
    simp only [feed, blockOf, hstep.nodes_of_isCurrent (h.reads input hmem)]

theorem filled_with_fills (result : Fill) (fills : Nat) :
    Step.filled request result { node with fills := fills }
      = { Step.filled request result node with fills := fills } := by
  unfold Step.filled Node.recorded
  cases hrecorder : node.recorder with
  | none => simp [Node.store, hrecorder]
  | some recorder => simp [Node.store, hrecorder, Node.block]

namespace HasFilled

variable {filled : List Nat}

theorem refl (request : Request) (rack : Rack) : HasFilled request rack rack [] := by
  refine ⟨rfl, List.nodup_nil, ?_, ?_, rfl⟩
  · intro id before _ hbefore
    exact ⟨before.fills, hbefore⟩
  · intro id hmem
    cases hmem

theorem not_mem_of_stale (h : HasFilled request base current filled)
    (hnode : current.nodes[id]? = some node) (hstale : node.isStale request.timestamp = true) :
    id ∉ filled := by
  intro hmem
  obtain ⟨before, after, -, hafter, hfilled⟩ := h.of_mem hmem
  rw [hnode] at hafter
  cases hafter
  rw [fresh_of_filledAs hfilled] at hstale
  cases hstale

theorem exists_kept (h : HasFilled request base current filled) (hmem : id ∉ filled)
    (hnode : current.nodes[id]? = some node) :
    ∃ before fills, base.nodes[id]? = some before ∧ node = { before with fills := fills } := by
  obtain ⟨before, hbefore, -⟩ := exists_of_shape h.shape_eq hnode
  obtain ⟨fills, hkept⟩ := h.kept hmem hbefore
  rw [hnode] at hkept
  cases hkept
  exact ⟨before, fills, hbefore, rfl⟩

theorem tape_step (hstep : Step request id current next) {other : Nat} (hne : id ≠ other)
    (files : Files) :
    base.tape next request.frames files other = base.tape current request.frames files other := by
  unfold tape
  rw [blockOf, blockOf, hstep.nodes_of_ne hne]

theorem foldl_tape_step (hstep : Step request id current next) (hmem : id ∉ filled)
    (files : Files) :
    filled.foldl (base.tape next request.frames) files
      = filled.foldl (base.tape current request.frames) files := by
  apply List.foldl_ext
  intro files other hother
  apply tape_step hstep
  rintro rfl
  exact hmem hother

theorem of_mem_step (h : HasFilled request base current filled)
    (hstep : Step request id current next) (hmem : id ∉ filled) {other : Nat}
    (hother : other ∈ filled) :
    ∃ before after, base.nodes[other]? = some before ∧ next.nodes[other]? = some after ∧
      FilledAs request next before after := by
  obtain ⟨before, after, hbefore, hafter, hfilled⟩ := h.of_mem hother
  refine ⟨before, after, hbefore, ?_, hfilled.step hstep⟩
  rw [hstep.nodes_of_ne, hafter]
  rintro rfl
  exact hmem hother

theorem touch (h : HasFilled request base current filled) (hnode : current.nodes[id]? = some node)
    (hstale : node.isStale request.timestamp = true) :
    HasFilled request base (current.update id Node.touch) filled := by
  have hstep := Step.touch hnode hstale
  have hmem := h.not_mem_of_stale hnode hstale
  refine ⟨hstep.shape_eq.trans h.shape_eq, h.nodup, ?_, h.of_mem_step hstep hmem, ?_⟩
  · intro other before hother hbefore
    obtain ⟨fills, hkept⟩ := h.kept hother hbefore
    rw [getElem?_update, hkept]
    split
    · exact ⟨fills + 1, rfl⟩
    · exact ⟨fills, rfl⟩
  · rw [foldl_tape_step hstep hmem]
    exact h.files_eq

theorem fill (h : HasFilled request base current filled) (hnode : current.nodes[id]? = some node)
    (hstale : node.isStale request.timestamp = true)
    (hreads : ∀ input ∈ node.device.reads, current.IsCurrent request.timestamp input)
    {result : Fill}
    (hfill : (node.device.map (current.feed request.frames)).fill request node.phase
      = .ok result) :
    HasFilled request base
      ((current.update id (·.store request.timestamp result)).recordBlock id request.frames).2
      (filled ++ [id]) := by
  have hstep := Step.fill hnode hstale hreads hfill
  have hmem := h.not_mem_of_stale hnode hstale
  obtain ⟨before, fills, hbefore, rfl⟩ := h.exists_kept hmem hnode
  have hafter : ∀ other : Nat,
      ((current.update id (·.store request.timestamp result)).recordBlock id
          request.frames).2.nodes[other]?
        = if id = other then
            some (Step.filled request result { before with fills := fills })
          else
            current.nodes[other]? :=
    Step.nodes_fill hnode
  have hstored : (current.update id (·.store request.timestamp result)).nodes[id]?
      = some (Node.store { before with fills := fills } request.timestamp result) := by
    rw [getElem?_update, if_pos rfl, hnode]
    rfl
  refine ⟨hstep.shape_eq.trans h.shape_eq, ?_, ?_, ?_, ?_⟩
  · rw [List.nodup_append]
    refine ⟨h.nodup, List.nodup_singleton id, ?_⟩
    intro other hother last hlast heq
    rw [heq, List.mem_singleton.1 hlast] at hother
    exact hmem hother
  · intro other earlier hother hearlier
    rw [List.mem_append, not_or, List.mem_singleton] at hother
    rw [hafter, if_neg (Ne.symm hother.2)]
    exact h.kept hother.1 hearlier
  · intro other hother
    rw [List.mem_append, List.mem_singleton] at hother
    obtain hother | rfl := hother
    · exact h.of_mem_step hstep hmem hother
    · have hnow : FilledAs request current before
          { Step.filled request result before with fills := fills } :=
        ⟨hstale, hreads, result, fills, hfill, rfl⟩
      refine ⟨before, _, hbefore, ?_, hnow.step hstep⟩
      rw [hafter, if_pos rfl, filled_with_fills]
  · have hblock : ((current.update id (·.store request.timestamp result)).recordBlock id
        request.frames).2.blockOf id request.frames
        = (Node.store { before with fills := fills } request.timestamp result).block
            request.frames := by
      rw [blockOf, hafter, if_pos rfl]
      exact block_filled _ _
    rw [List.foldl_append, foldl_tape_step hstep hmem, ← h.files_eq, List.foldl_cons,
      List.foldl_nil, tape, hblock, hbefore, files_recordBlock hstored]
    rfl

theorem step (h : HasFilled request base current filled) (hstep : Step request id current next) :
    ∃ more, HasFilled request base next more := by
  cases hstep with
  | touch hnode hstale => exact ⟨filled, h.touch hnode hstale⟩
  | fill hnode hstale hreads hfill => exact ⟨_, h.fill hnode hstale hreads hfill⟩

theorem lookup_foldl_tape {file : Way} {files : Files}
    (h : ∀ id ∈ filled, base.fileOf id ≠ some file) :
    (filled.foldl (base.tape next request.frames) files).contents.lookup file
      = files.contents.lookup file := by
  induction filled generalizing files with
  | nil => rfl
  | cons id rest ih =>
    rw [List.foldl_cons, ih fun other hmem => h other (List.mem_cons_of_mem _ hmem)]
    have hfile := h id (List.mem_cons_self ..)
    unfold fileOf at hfile
    unfold tape
    cases hrecorder : base.nodes[id]?.bind (·.recorder) with
    | none => rfl
    | some recorder =>
      apply Recorder.lookup_writeBlock_of_ne
      rintro rfl
      exact hfile (by rw [hrecorder]; rfl)

variable {recorder : Recorder} {channels : Nat} {data : List UInt8}

theorem holds_of_not_mem (h : HasFilled request base next filled) (hmem : id ∉ filled)
    (halone : base.Alone id recorder.file) (hholds : recorder.Holds base.files channels data) :
    recorder.Holds next.files channels data := by
  apply hholds.of_lookup_eq
  rw [h.files_eq]
  apply lookup_foldl_tape
  intro other hother
  apply halone
  rintro rfl
  exact hmem hother

theorem holds_of_mem (h : HasFilled request base next filled) (hbase : base.WellFormed)
    (hnext : next.WellFormed) (hframes : request.frames ≤ maxFrames) (hmem : id ∈ filled)
    (hnode : base.nodes[id]? = some node) (hrecorder : node.recorder = some recorder)
    (halone : base.Alone id recorder.file) (hholds : recorder.Holds base.files channels data) :
    (recorder.take (next.blockOf id request.frames)).2.Holds next.files channels
      (data ++ recorder.gain (next.blockOf id request.frames)) := by
  -- The file of the node is written once, because the node is in the list once and no other node
  -- writes to it.
  obtain ⟨left, right, rfl⟩ := List.append_of_mem hmem
  have hnodup := h.nodup
  rw [List.nodup_middle, List.nodup_cons, List.mem_append, not_or] at hnodup
  obtain ⟨⟨hleft, hright⟩, -⟩ := hnodup
  have hothers : ∀ {list : List Nat}, id ∉ list → ∀ other ∈ list,
      base.fileOf other ≠ some recorder.file := by
    intro list hid other hother
    apply halone
    rintro rfl
    exact hid hother
  obtain ⟨after, hafter, hdevice, -⟩ := exists_of_shape h.shape_eq.symm hnode
  have hwhole : (next.blockOf id request.frames).size % node.device.channels = 0 := by
    rw [blockOf, hafter, ← hdevice]
    exact Node.whole_block (hnext.sound hafter) hframes
  have hlookup : (left.foldl (base.tape next request.frames) base.files).contents.lookup
      recorder.file = base.files.contents.lookup recorder.file :=
    lookup_foldl_tape (hothers hleft)
  have hbefore := hholds.of_lookup_eq hlookup
  have hwrite := hbefore.take ((hbase.sound hnode).inOrder recorder hrecorder)
    node.device.channels_le_two hwhole
  have htape : ∀ files, base.tape next request.frames files id
      = (recorder.writeBlock (next.blockOf id request.frames) files).2.2 := by
    intro files
    simp only [tape, hnode, Option.bind_some, hrecorder]
  rw [h.files_eq, List.foldl_append, List.foldl_cons, htape]
  apply hwrite.of_lookup_eq
  rw [Recorder.file_take]
  exact lookup_foldl_tape (hothers hright)

end HasFilled

theorem Steps.hasFilled {among : Nat → Prop} (h : Steps request among base next) :
    ∃ filled, HasFilled request base next filled := by
  apply h.keep (P := fun next => ∃ filled, HasFilled request base next filled)
  · rintro id current next - hstep ⟨filled, hcurrent⟩
    exact hcurrent.step hstep
  · exact ⟨[], HasFilled.refl request base⟩

/--
Whether all samples of the block of a node come from the fill that made it. A constant computes
none, and its buffer holds its value from the start.
-/
def Complete (request : Request) (next : Rack) (before after : Node) : Prop :=
  match before.device with
  | .constant value =>
    after.block request.frames = Array.replicate request.frames value
  | device =>
    ((device.map (next.feed request.frames)).fill request before.phase).map (·.samples)
      = .ok (after.block request.frames)

theorem FilledAs.size_feeds {before after : Node} (h : FilledAs request next before after)
    (hframes : request.frames ≤ maxFrames) (hnext : next.WellFormed)
    (hstandard : before.device.isCustom = false)
    (hchannels : ∀ input ∈ before.device.inputs,
      next.channelsOf input = before.device.inputChannels) :
    ∀ feed ∈ (before.device.map (next.feed request.frames)).inputs,
      feed.block.size
        = request.frames * (before.device.map (next.feed request.frames)).inputChannels := by
  intro feed hmem
  rw [Device.inputs_map, List.mem_map] at hmem
  obtain ⟨input, hmem, rfl⟩ := hmem
  have hread : input ∈ before.device.reads := by rwa [Device.reads_eq_inputs hstandard]
  obtain ⟨read, hread, -⟩ := h.reads input hread
  have hsame := hchannels input hmem
  simp only [channelsOf, hread] at hsame
  simp only [feed, blockOf, hread, Node.size_block (hnext.sound hread) hframes, hsame,
    Device.inputChannels_map]

theorem FilledAs.complete {before after : Node} (h : FilledAs request next before after)
    (hframes : request.frames ≤ maxFrames) (hnext : next.WellFormed) (htyped : next.WellTyped)
    (hafter : next.nodes[id]? = some after) : Complete request next before after := by
  obtain ⟨result, fills, hfill, heq⟩ := h.fill
  have hdevice : after.device = before.device := by
    rw [heq]
    simp [Step.filled, Node.store]
  have hblock : after.block request.frames
      = (before.store request.timestamp result).block request.frames := by
    rw [← block_filled result request.frames, heq]
    rfl
  by_cases hconstant : ∃ value, before.device = .constant value
  · obtain ⟨value, hvalue⟩ := hconstant
    have hbuffer := (hnext.sound hafter).buffer_constant value (hdevice.trans hvalue)
    have hmin : min request.frames maxFrames = request.frames := Nat.min_eq_left hframes
    simp only [Complete, hvalue, Node.block, hdevice, hbuffer]
    simp [Device.channels, Device.isStereo, hmin]
  · obtain ⟨hstandard, hchannels⟩ := htyped id after hafter
    rw [hdevice] at hstandard hchannels
    have hsize := Device.size_samples_of_feeds (by simpa using hstandard)
      (fun value hvalue => hconstant ⟨value, Device.map_eq_constant_iff.1 hvalue⟩)
      (h.size_feeds hframes hnext hstandard hchannels) hfill
    rw [Device.channels_map] at hsize
    rw [Node.block_store _ hsize] at hblock
    have hsamples : ((before.device.map (next.feed request.frames)).fill request
        before.phase).map (·.samples) = .ok (after.block request.frames) := by
      rw [hfill, hblock]
      rfl
    unfold Complete
    split
    next value hvalue => exact absurd ⟨value, hvalue⟩ hconstant
    next => exact hsamples

end Rack
end PatchSynth
