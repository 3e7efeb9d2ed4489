import PatchSynth.Proofs.Rack.Rejection
import PatchSynth.Proofs.Rack.Atomic

/-!
This module contains the order of pulls for one request. A pull that succeeds leaves the values that
the rack has for the request as they are, so that it does not matter which of two nodes is pulled
first. Files are the exception: two recorders that write to one file overwrite each other, and the
later block stays.
-/

namespace PatchSynth

theorem Files.lookup_overwrite_congr {files other : Files} {way : Way}
    (h : files.contents.lookup way = other.contents.lookup way) (target : Way) (offset : Nat)
    (bytes : List UInt8) :
    (files.overwrite target offset bytes).contents.lookup way
      = (other.overwrite target offset bytes).contents.lookup way := by
  by_cases hway : way = target
  · subst hway
    simp only [overwrite, lookup_store, if_true, h]
  · rw [lookup_overwrite_of_ne hway, lookup_overwrite_of_ne hway, h]

theorem Wav.Writer.lookup_append_congr {files other : Files} {way : Way}
    (h : files.contents.lookup way = other.contents.lookup way) (writer : Writer)
    (samples : List Int16) :
    (writer.append samples files).2.contents.lookup way
      = (writer.append samples other).2.contents.lookup way := by
  apply Files.lookup_overwrite_congr
  unfold writeDueSize
  split
  · exact Files.lookup_overwrite_congr h ..
  · exact h

theorem Wav.Writer.lookup_flush_congr {files other : Files} {way : Way}
    (h : files.contents.lookup way = other.contents.lookup way) (writer : Writer) :
    (writer.flush files).2.2.contents.lookup way
      = (writer.flush other).2.2.contents.lookup way := by
  unfold flush
  dsimp only
  split
  · exact Files.lookup_overwrite_congr (Files.lookup_overwrite_congr h ..) ..
  · exact Files.lookup_overwrite_congr h ..

theorem Recorder.lookup_writeBlock_congr {files other : Files} {way : Way}
    (h : files.contents.lookup way = other.contents.lookup way) (recorder : Recorder)
    (block : Block) :
    (recorder.writeBlock block files).2.2.contents.lookup way
      = (recorder.writeBlock block other).2.2.contents.lookup way := by
  unfold writeBlock
  dsimp only
  split
  · exact h
  · exact Wav.Writer.lookup_flush_congr (Wav.Writer.lookup_append_congr h ..) _

def Device.Steady (controls : Controls) (value : Float32) : Device Nat → Prop
  | .constant held => held = value
  | .control axis => controls.get axis = value
  | _ => False

theorem Node.exists_fill_of_steady {node : Node} (h : node.Sound) {request : Request}
    {value : Float32} (hframes : request.frames ≤ maxFrames)
    (hsteady : node.device.Steady request.controls value) :
    node.device.demands = [] ∧ node.device.reads = [] ∧ ∃ result,
      (∀ f, (node.device.map f).fill request node.phase = .ok result) ∧
      (node.store request.timestamp result).block request.frames
        = Array.replicate request.frames value := by
  have hmin : min request.frames maxFrames = request.frames := Nat.min_eq_left hframes
  cases hdevice : node.device with
  | constant held =>
    rw [hdevice] at hsteady
    cases hsteady
    refine ⟨rfl, rfl, { samples := #[], phase := node.phase }, fun _ => rfl, ?_⟩
    simp [Node.block, Node.store, h.buffer_constant value hdevice, hdevice, Device.channels,
      Device.isStereo, hmin]
  | control axis =>
    rw [hdevice] at hsteady
    cases hsteady
    refine ⟨rfl, rfl, { samples := Array.replicate request.frames (request.controls.get axis)
                        phase := node.phase }, fun _ => rfl, ?_⟩
    simp [Node.block, Node.store, hdevice, Device.channels, Device.isStereo]
  | _ =>
    rw [hdevice] at hsteady
    cases hsteady

namespace Rack

variable {request : Request} {rack base current next : Rack} {id root : Nat} {node : Node}

theorem evaluated_congr (hshape : next.shape = rack.shape) {pull pull' : Nat → Except Error Node}
    (hpull : ∀ input ∈ node.device.reads, pull' input = pull input) :
    next.evaluated request pull' node = rack.evaluated request pull node := by
  have hreads : node.device.reads.map pull' = node.device.reads.map pull :=
    List.map_congr_left hpull
  have hfill : (node.device.map (next.feedFrom request.frames pull')).fill request node.phase
      = (node.device.map (rack.feedFrom request.frames pull)).fill request node.phase := by
    apply Device.fill_map_congr
    · intro input _
      simp only [feedFrom, rangeOf_of_shape hshape]
    · intro input hmem
      simp only [feedFrom, hpull input hmem]
  simp only [evaluated, checkDemands_of_shape hshape, hreads, hfill]

structure Settled (request : Request) (base : Rack) (among : Nat → Prop) (next : Rack) : Prop where
  shape_eq : next.shape = base.shape
  value : ∀ {id}, among id →
    ∃ value, base.pulled request id = .ok value ∧ next.nodes[id]? = some value
  kept : ∀ {id}, ¬ among id → next.nodes[id]? = base.nodes[id]?

theorem WellFormed.settled_refresh (h : rack.WellFormed) (hframes : request.frames ≤ maxFrames)
    (hok : (rack.refresh request root).1 = .ok ()) :
    Settled request rack (rack.Reaches root) (rack.refresh request root).2 :=
  ⟨shape_refresh request rack root, fun hreaches => h.exists_pulled_of_reaches hframes hok hreaches,
    fun hreaches => nodes_refresh_of_not_reaches hreaches⟩

namespace Settled

variable {among amongOther : Nat → Prop}

theorem pulled_eq (h : Settled request base among next) (id : Nat) :
    next.pulled request id = base.pulled request id := by
  -- A node outside the set is evaluated anew, from reads that come to the same by induction.
  induction id using Nat.strongRecOn with
  | ind id ih =>
    by_cases hid : among id
    · obtain ⟨value, hvalue, hnode⟩ := h.value hid
      rw [pulled_of_fresh hnode (isStale_of_pulled hvalue), hvalue]
    · rw [Rack.pulled_eq, Rack.pulled_eq request base, h.kept hid]
      cases hnode : base.nodes[id]? with
      | none => rfl
      | some node =>
        have hbelow : ∀ input ∈ node.device.reads,
            next.pulledBelow request id input = base.pulledBelow request id input := by
          intro input _
          unfold pulledBelow
          split
          next hlt => exact ih input hlt
          next => rfl
        simp only [evaluated_congr h.shape_eq hbelow]

theorem trans (h : Settled request base among current)
    (hnext : Settled request current amongOther next) :
    Settled request base (fun id => among id ∨ amongOther id) next := by
  refine ⟨hnext.shape_eq.trans h.shape_eq, ?_, ?_⟩
  · intro id hid
    by_cases hother : amongOther id
    · obtain ⟨value, hvalue, hnode⟩ := hnext.value hother
      rw [h.pulled_eq] at hvalue
      exact ⟨value, hvalue, hnode⟩
    · rw [hnext.kept hother]
      exact h.value (hid.resolve_right hother)
  · intro id hid
    rw [not_or] at hid
    rw [hnext.kept hid.2, h.kept hid.1]

theorem nodes_eq (h : Settled request base among current)
    (hother : Settled request base amongOther next) (hsame : ∀ id, among id ↔ amongOther id) :
    next.nodes = current.nodes := by
  apply Array.ext_getElem?
  intro id
  by_cases hid : among id
  · obtain ⟨value, hvalue, hnode⟩ := h.value hid
    obtain ⟨value', hvalue', hnode'⟩ := hother.value ((hsame id).1 hid)
    rw [hvalue] at hvalue'
    cases hvalue'
    rw [hnode, hnode']
  · rw [h.kept hid, hother.kept fun hid' => hid ((hsame id).2 hid')]

end Settled

namespace HasFilled

variable {filled : List Nat} {file : Way}

theorem mem_iff (h : HasFilled request base next filled) :
    id ∈ filled ↔ ∃ before after, base.nodes[id]? = some before ∧ next.nodes[id]? = some after ∧
      before.isStale request.timestamp = true ∧ after.isStale request.timestamp = false := by
  constructor
  · intro hmem
    obtain ⟨before, after, hbefore, hafter, hfilled⟩ := h.of_mem hmem
    exact ⟨before, after, hbefore, hafter, hfilled.stale, fresh_of_filledAs hfilled⟩
  · rintro ⟨before, after, hbefore, hafter, hstale, hfresh⟩
    by_contra hmem
    obtain ⟨fills, hkept⟩ := h.kept hmem hbefore
    rw [hafter] at hkept
    cases hkept
    exact absurd (hfresh.symm.trans hstale) (by simp)

theorem eq_singleton (h : HasFilled request base next filled) {before after : Node}
    (hbefore : base.nodes[id]? = some before) (hafter : next.nodes[id]? = some after)
    (hstale : before.isStale request.timestamp = true)
    (hfresh : after.isStale request.timestamp = false)
    (hkept : ∀ other, other ≠ id → next.nodes[other]? = base.nodes[other]?) : filled = [id] := by
  rw [← List.perm_singleton, List.perm_ext_iff_of_nodup h.nodup (List.nodup_singleton id)]
  intro other
  rw [h.mem_iff, List.mem_singleton]
  constructor
  · rintro ⟨found, left, hfound, hleft, hstale, hfresh⟩
    by_contra hother
    rw [hkept other hother, hfound] at hleft
    cases hleft
    exact absurd (hfresh.symm.trans hstale) (by simp)
  · rintro rfl
    exact ⟨before, after, hbefore, hafter, hstale, hfresh⟩

theorem lookup_tape_congr {files other : Files}
    (h : files.contents.lookup file = other.contents.lookup file) (frames : Nat) :
    (base.tape next frames files id).contents.lookup file
      = (base.tape next frames other id).contents.lookup file := by
  unfold tape
  split
  next => exact h
  next recorder _ => exact Recorder.lookup_writeBlock_congr h recorder _

theorem lookup_of_alone (h : HasFilled request base next filled) (halone : base.Alone id file) :
    next.files.contents.lookup file =
      if id ∈ filled then
        (base.tape next request.frames base.files id).contents.lookup file
      else
        base.files.contents.lookup file := by
  have hothers : ∀ {list : List Nat}, id ∉ list → ∀ other ∈ list,
      base.fileOf other ≠ some file := by
    intro list hid other hother
    apply halone
    rintro rfl
    exact hid hother
  rw [h.files_eq]
  split
  next hmem =>
    obtain ⟨left, right, rfl⟩ := List.append_of_mem hmem
    have hnodup := h.nodup
    rw [List.nodup_middle, List.nodup_cons, List.mem_append, not_or] at hnodup
    obtain ⟨⟨hleft, hright⟩, -⟩ := hnodup
    rw [List.foldl_append, List.foldl_cons, lookup_foldl_tape (hothers hright)]
    exact lookup_tape_congr (lookup_foldl_tape (hothers hleft)) request.frames
  next hmem => exact lookup_foldl_tape (hothers hmem)

theorem lookup_eq {filled' : List Nat} (h : HasFilled request base current filled)
    (hother : HasFilled request base next filled') (hnodes : next.nodes = current.nodes)
    (halone : base.Alone id file) :
    next.files.contents.lookup file = current.files.contents.lookup file := by
  have hmem : id ∈ filled' ↔ id ∈ filled := by
    rw [h.mem_iff, hother.mem_iff, hnodes]
  have htape : base.tape next = base.tape current := by
    funext frames files other
    simp only [tape, blockOf, hnodes]
  rw [h.lookup_of_alone halone, hother.lookup_of_alone halone, htape]
  simp only [hmem]

end HasFilled

theorem WellFormed.settled_output (h : rack.WellFormed) {block : Block}
    (hok : (rack.output request root).1 = .ok block) :
    Settled request.clamped rack (rack.Reaches root) (rack.output request root).2 := by
  rw [nodes_output_clamped]
  exact h.settled_refresh (Nat.min_le_right _ _) (refresh_of_output hok)

theorem WellFormed.fst_output_output (h : rack.WellFormed) {block : Block}
    (hok : (rack.output request root).1 = .ok block) (id : Nat) :
    ((rack.output request root).2.output request id).1 = (rack.output request id).1 := by
  rw [fst_output_eq_pulled, (h.settled_output hok).pulled_eq, ← fst_output_eq_pulled]

theorem WellFormed.settled_output_output (h : rack.WellFormed) {other : Nat} {one two : Block}
    (hone : (rack.output request root).1 = .ok one)
    (htwo : (rack.output request other).1 = .ok two) :
    Settled request.clamped rack (fun id => rack.Reaches root id ∨ rack.Reaches other id)
      ((rack.output request root).2.output request other).2 := by
  have hsettled := h.settled_output hone
  have hnext := (h.output request root).settled_output (by rw [h.fst_output_output hone, htwo])
  rw [reaches_of_shape hsettled.shape_eq] at hnext
  exact hsettled.trans hnext

theorem hasFilled_output_output (request : Request) (rack : Rack) (root other : Nat) :
    ∃ filled, HasFilled request.clamped rack
      ((rack.output request root).2.output request other).2 filled := by
  rw [nodes_output_clamped, nodes_output_clamped]
  have hfirst := (steps_refresh request.clamped root rack).1
  have hsecond := (steps_refresh request.clamped other (rack.refresh request.clamped root).2).1
  have hboth : Steps request.clamped (fun _ => True) rack
      ((rack.refresh request.clamped root).2.refresh request.clamped other).2 :=
    (hfirst.mono fun _ _ => trivial).trans (hsecond.mono fun _ _ => trivial)
  exact hboth.hasFilled

/--
The order of two calls that succeed does not matter: in the other order they succeed with the same
blocks and leave every node in the same state. A file ends up the same too, unless several nodes are
recorded to it.
-/
theorem output_comm (h : rack.Reachable) {request : Request} {first second : Nat}
    {one two : Block} {mid last : Rack} (hfirst : rack.output request first = (.ok one, mid))
    (hsecond : mid.output request second = (.ok two, last)) :
    ∃ mid' last', rack.output request second = (.ok two, mid') ∧
      mid'.output request first = (.ok one, last') ∧
      last'.nodes = last.nodes ∧
      ∀ id file, rack.Alone id file →
        last'.files.contents.lookup file = last.files.contents.lookup file := by
  have hwell := h.wellFormed
  have hone : (rack.output request first).1 = .ok one := congrArg Prod.fst hfirst
  have hmid : (rack.output request first).2 = mid := congrArg Prod.snd hfirst
  have htwo : (rack.output request second).1 = .ok two := by
    rw [← hwell.fst_output_output hone, hmid, hsecond]
  have hlast : ((rack.output request first).2.output request second).2 = last := by
    rw [hmid, hsecond]
  have hnodes : ((rack.output request second).2.output request first).2.nodes = last.nodes := by
    rw [← hlast]
    exact (hwell.settled_output_output hone htwo).nodes_eq
      (hwell.settled_output_output htwo hone) fun id => Or.comm
  -- Both orders fill the same nodes once, so a file of one node alone gets the same block.
  obtain ⟨filled, hfilled⟩ := hasFilled_output_output request rack first second
  obtain ⟨filled', hfilled'⟩ := hasFilled_output_output request rack second first
  rw [hlast] at hfilled
  refine ⟨_, _, Prod.ext htwo rfl, Prod.ext ?_ rfl, hnodes, ?_⟩
  · rw [hwell.fst_output_output htwo, hone]
  · intro id file halone
    exact hfilled.lookup_eq hfilled' hnodes halone

section Steady

variable {value : Float32}

theorem exists_pulled_of_steady (h : rack.WellFormed) (hframes : request.frames ≤ maxFrames)
    (hnode : rack.nodes[id]? = some node) (hstale : node.isStale request.timestamp = true)
    (hsteady : node.device.Steady request.controls value)
    (hcontains : node.range.contains value = true)
    (hroom : ∀ recorder, node.recorder = some recorder →
      recorder.written + request.frames * node.device.channels ≤ Wav.maxSamples) :
    ∃ read, rack.pulled request id = .ok read ∧
      read.block request.frames = Array.replicate request.frames value := by
  obtain ⟨hdemands, hreads, result, hfill, hblock⟩ :=
    Node.exists_fill_of_steady (h.sound hnode) hframes hsteady
  have hsound : (node.touch.store request.timestamp result).Sound :=
    Node.sound_store (h.sound hnode).touch hframes (hfill (rack.feed request.frames))
  rw [pulled_of_stale hnode hstale]
  refine ⟨Step.filled request result node.touch,
    evaluated_eq_ok_iff.2 ⟨?_, ?_, result, hfill _, ?_, ?_, rfl⟩, ?_⟩
  · rw [checkDemands, hdemands]
    rfl
  · intro input hmem
    rw [hreads] at hmem
    cases hmem
  · exact Node.recorded_of_room hsound hframes hroom
  · rw [Node.check_eq_ok_iff, hblock]
    intro sample hmem
    rw [Array.mem_replicate] at hmem
    rw [hmem.2]
    exact hcontains
  · rw [block_filled]
    exact hblock

theorem reaches_of_steady {controls : Controls} (hnode : rack.nodes[id]? = some node)
    (hsteady : node.device.Steady controls value) {other : Nat}
    (hreaches : rack.Reaches id other) : other = id := by
  induction hreaches with
  | refl => rfl
  | tail _ hlast ih =>
    subst ih
    obtain ⟨found, hfound, hmem⟩ := hlast
    rw [hnode] at hfound
    cases hfound
    cases hdevice : node.device with
    | constant held =>
      rw [hdevice] at hmem
      cases hmem
    | control axis =>
      rw [hdevice] at hmem
      cases hmem
    | _ =>
      rw [hdevice] at hsteady
      cases hsteady

theorem output_of_steady (h : rack.WellFormed) (request : Request)
    (hnode : rack.nodes[id]? = some node) (hstale : node.isStale request.timestamp = true)
    (hsteady : node.device.Steady request.controls value)
    (hcontains : node.range.contains value = true)
    (hroom : ∀ recorder, node.recorder = some recorder →
      recorder.written + request.clamped.frames * node.device.channels ≤ Wav.maxSamples) :
    (rack.output request id).1 = .ok (Array.replicate request.clamped.frames value) ∧
      (rack.output request id).2.files
        = (match node.recorder with
          | none => rack.files
          | some recorder => (recorder.writeBlock
              (Array.replicate request.clamped.frames value) rack.files).2.2) ∧
      ∀ other, other ≠ id → (rack.output request id).2.nodes[other]? = rack.nodes[other]? := by
  have hframes : request.clamped.frames ≤ maxFrames := Nat.min_le_right _ _
  obtain ⟨read, hread, hblock⟩ : ∃ read, rack.pulled request.clamped id = .ok read ∧
      read.block request.clamped.frames = Array.replicate request.clamped.frames value :=
    exists_pulled_of_steady h hframes hnode hstale hsteady hcontains hroom
  obtain ⟨block, hok⟩ := exists_output_of_pulled hread
  have hsettled := h.settled_output hok
  obtain ⟨found, hfound, hafter⟩ := hsettled.value (Reaches.refl rack id)
  rw [hread] at hfound
  cases hfound
  have hkept : ∀ other, other ≠ id →
      (rack.output request id).2.nodes[other]? = rack.nodes[other]? := fun other hother =>
    hsettled.kept fun hreaches => hother (reaches_of_steady hnode hsteady hreaches)
  refine ⟨by rw [fst_output_eq_pulled, hread, Except.map, hblock], ?_, hkept⟩
  obtain ⟨filled, hfilled⟩ := (steps_refresh request.clamped id rack).1.hasFilled
  rw [← nodes_output_clamped] at hfilled
  have honly := hfilled.eq_singleton hnode hafter hstale (isStale_of_pulled hread) hkept
  rw [hfilled.files_eq, honly, List.foldl_cons, List.foldl_nil]
  cases hrecorder : node.recorder with
  | none => simp only [tape, hnode, Option.bind_some, hrecorder]
  | some recorder => simp only [tape, hnode, Option.bind_some, hrecorder, blockOf, hafter, hblock]

theorem output_output_of_steady (h : rack.WellFormed) (request : Request) {other : Nat}
    {node' : Node} {value' : Float32} {recorder recorder' : Recorder} (hne : other ≠ id)
    (hnode : rack.nodes[id]? = some node) (hother : rack.nodes[other]? = some node')
    (hstale : node.isStale request.timestamp = true ∧ node'.isStale request.timestamp = true)
    (hsteady : node.device.Steady request.controls value ∧
      node'.device.Steady request.controls value')
    (hcontains : node.range.contains value = true ∧ node'.range.contains value' = true)
    (hrecorder : node.recorder = some recorder ∧ node'.recorder = some recorder')
    (hroom : recorder.written + request.clamped.frames * node.device.channels ≤ Wav.maxSamples ∧
      recorder'.written + request.clamped.frames * node'.device.channels ≤ Wav.maxSamples) :
    ∃ mid last,
      rack.output request id = (.ok (Array.replicate request.clamped.frames value), mid) ∧
      mid.output request other = (.ok (Array.replicate request.clamped.frames value'), last) ∧
      last.files = (recorder'.writeBlock (Array.replicate request.clamped.frames value')
        (recorder.writeBlock (Array.replicate request.clamped.frames value)
          rack.files).2.2).2.2 := by
  have hfits : ∀ {recorder : Recorder} {room : Nat}, recorder.written + room ≤ Wav.maxSamples →
      ∀ found, some recorder = some found → found.written + room ≤ Wav.maxSamples := by
    rintro recorder room hroom found ⟨⟩
    exact hroom
  obtain ⟨hblock, hfiles, hkept⟩ := output_of_steady h request hnode hstale.1 hsteady.1
    hcontains.1 (by rw [hrecorder.1]; exact hfits hroom.1)
  rw [← hkept other hne] at hother
  obtain ⟨hblock', hfiles', -⟩ := output_of_steady (h.output request id) request hother hstale.2
    hsteady.2 hcontains.2 (by rw [hrecorder.2]; exact hfits hroom.2)
  rw [hrecorder.1] at hfiles
  rw [hrecorder.2, hfiles] at hfiles'
  exact ⟨_, _, Prod.ext hblock rfl, Prod.ext hblock' rfl, hfiles'⟩

end Steady

def silentRack : Rack :=
  ((({} : Rack).add (.constant 0)).2.add (.constant 1)).2

def sharedRack : Rack :=
  ((silentRack.record 0 "x" 1).2.record 1 "x" 1).2

def sharedRequest : Request :=
  { timestamp := 0, frames := 1, controls := {} }

def sharedRecorder : Recorder :=
  { path := "x", scaler := 1, writer := { file := ["x"], channels := 1 } }

def sharedFiles : Files :=
  { contents := [(["x"], (Wav.header 1 0).toArray)] }

theorem record_shared (hnode : rack.nodes[id]? = some node) (hmono : node.device.channels = 1)
    (hrecorder : node.recorder = none) (htarget : rack.files.target "x" = .ok ["x"])
    (hdirectories : rack.files.directories = [])
    (hstore : Files.store ["x"] (Wav.header 1 0).toArray rack.files.contents
      = sharedFiles.contents) :
    (rack.record id "x" 1).2 =
      { rack.update id fun node => { node with recorder := some sharedRecorder } with
        files := sharedFiles } := by
  have hcreate : Recorder.create rack.files "x" 1 1 = .ok (sharedRecorder, sharedFiles) := by
    rw [Recorder.create_of_target htarget, hstore, hdirectories]
    rfl
  simp only [record, hnode, hrecorder, hmono, hcreate]
  rfl

theorem record_record_shared {first second : Device Nat} (hfirst : first.channels = 1)
    (hsecond : second.channels = 1) :
    ((((({} : Rack).add first).2.add second).2.record 0 "x" 1).2.record 1 "x" 1).2 =
      { (((({} : Rack).add first).2.add second).2.update 0 fun node =>
            { node with recorder := some sharedRecorder }).update 1
          fun node => { node with recorder := some sharedRecorder } with
        files := sharedFiles } := by
  have hone : ((((({} : Rack).add first).2.add second).2).record 0 "x" 1).2 =
      { ((({} : Rack).add first).2.add second).2.update 0 fun node =>
          { node with recorder := some sharedRecorder } with
        files := sharedFiles } := by
    have hnode : ((({} : Rack).add first).2.add second).2.nodes[0]?
        = some (({} : Rack).fresh first) := rfl
    have htarget : Files.target {} "x" = .ok ["x"] := by cbv
    exact record_shared hnode hfirst rfl htarget rfl rfl
  have hnode : ((((({} : Rack).add first).2.add second).2).record 0 "x" 1).2.nodes[1]?
      = some ((({} : Rack).add first).2.fresh second) := by
    rw [hone]
    rfl
  have hfiles : ((((({} : Rack).add first).2.add second).2).record 0 "x" 1).2.files
      = sharedFiles := by
    rw [hone]
  have htarget : sharedFiles.target "x" = .ok ["x"] := by cbv
  rw [record_shared hnode hsecond rfl, hone]
  · rfl
  · rw [hfiles, htarget]
  · rw [hfiles]
    rfl
  · rw [hfiles]
    rfl

theorem sharedRack_eq :
    sharedRack =
      { (silentRack.update 0 fun node => { node with recorder := some sharedRecorder }).update 1
          fun node => { node with recorder := some sharedRecorder } with
        files := sharedFiles } :=
  record_record_shared rfl rfl

theorem reachable_shared : sharedRack.Reachable := by
  have hzero : (({} : Rack).add (.constant 0)).2.Reachable :=
    (Reachable.empty {}).add (by simp [Device.inputs])
  obtain ⟨files, hboth⟩ : silentRack.Reachable := hzero.add (by simp [Device.inputs])
  exact ⟨files, (hboth.record 0 "x" 1).record 1 "x" 1⟩

theorem output_shared {other : Nat} {value value' : Float32} {node' : Node}
    (hne : other ≠ id) (hnode : sharedRack.nodes[id]? = some node)
    (hother : sharedRack.nodes[other]? = some node')
    (hsteady : node.device.Steady {} value ∧ node'.device.Steady {} value')
    (hmono : node.device.channels = 1 ∧ node'.device.channels = 1)
    (hrecorder : node.recorder = some sharedRecorder ∧ node'.recorder = some sharedRecorder)
    (hlast : node.last = none ∧ node'.last = none)
    (hcontains : node.range.contains value = true ∧ node'.range.contains value' = true) :
    ∃ mid last,
      sharedRack.output sharedRequest id = (.ok #[value], mid) ∧
      mid.output sharedRequest other = (.ok #[value'], last) ∧
      last.files = (sharedRecorder.writeBlock #[value']
        (sharedRecorder.writeBlock #[value] sharedFiles).2.2).2.2 := by
  have hstale : ∀ {node : Node}, node.last = none →
      node.isStale sharedRequest.timestamp = true := by
    intro node hnone
    rw [Node.isStale, hnone]
  have hroom : ∀ {node : Node}, node.device.channels = 1 →
      sharedRecorder.written + sharedRequest.clamped.frames * node.device.channels
        ≤ Wav.maxSamples := by
    intro node hone
    rw [hone]
    decide
  have hshared : sharedRack.files = sharedFiles := by rw [sharedRack_eq]
  rw [← hshared]
  exact output_output_of_steady reachable_shared.wellFormed sharedRequest hne hnode hother
    ⟨hstale hlast.1, hstale hlast.2⟩ hsteady hcontains hrecorder ⟨hroom hmono.1, hroom hmono.2⟩

theorem zero_shared : sharedRack.nodes[0]? = some { ({} : Rack).fresh (.constant 0) with
    recorder := some sharedRecorder } := by
  rw [sharedRack_eq]
  rfl

theorem one_shared : sharedRack.nodes[1]?
    = some { (({} : Rack).add (.constant 0)).2.fresh (.constant 1) with
        recorder := some sharedRecorder } := by
  rw [sharedRack_eq]
  rfl

theorem contains_shared :
    (Range.point 0).contains 0 = true ∧ (Range.point 1).contains 1 = true := by
  decide +kernel

theorem output_comm_shared :
    sharedRack.Reachable ∧ sharedRack.fileOf 0 = some ["x"] ∧ sharedRack.fileOf 1 = some ["x"] ∧
      ∃ mid last mid' last',
        sharedRack.output sharedRequest 0 = (.ok #[0], mid) ∧
        mid.output sharedRequest 1 = (.ok #[1], last) ∧
        sharedRack.output sharedRequest 1 = (.ok #[1], mid') ∧
        mid'.output sharedRequest 0 = (.ok #[0], last') ∧
        last.files.contents.lookup ["x"] ≠ last'.files.contents.lookup ["x"] := by
  obtain ⟨mid, last, hfirst, hsecond, hfiles⟩ := output_shared (by decide) zero_shared one_shared
    ⟨rfl, rfl⟩ ⟨rfl, rfl⟩ ⟨rfl, rfl⟩ ⟨rfl, rfl⟩ contains_shared
  obtain ⟨mid', last', hfirst', hsecond', hfiles'⟩ := output_shared (by decide) one_shared
    zero_shared ⟨rfl, rfl⟩ ⟨rfl, rfl⟩ ⟨rfl, rfl⟩ ⟨rfl, rfl⟩ contains_shared.symm
  refine ⟨reachable_shared, fileOf_eq zero_shared rfl, fileOf_eq one_shared rfl, mid, last, mid',
    last', hfirst, hsecond, hfirst', hsecond', ?_⟩
  rw [hfiles, hfiles']
  decide +kernel

theorem output_comm_nodes_shared :
    sharedRack.Reachable ∧ ∃ mid last mid' last',
      sharedRack.output sharedRequest 0 = (.ok #[0], mid) ∧
      mid.output sharedRequest 1 = (.ok #[1], last) ∧
      sharedRack.output sharedRequest 1 = (.ok #[1], mid') ∧
      mid'.output sharedRequest 0 = (.ok #[0], last') ∧
      last'.nodes = last.nodes := by
  obtain ⟨mid, last, hfirst, hsecond, -⟩ := output_shared (by decide) zero_shared one_shared
    ⟨rfl, rfl⟩ ⟨rfl, rfl⟩ ⟨rfl, rfl⟩ ⟨rfl, rfl⟩ contains_shared
  obtain ⟨mid', last', hfirst', hsecond', hnodes, -⟩ :=
    output_comm reachable_shared hfirst hsecond
  exact ⟨reachable_shared, mid, last, mid', last', hfirst, hsecond, hfirst', hsecond', hnodes⟩

end Rack
end PatchSynth
