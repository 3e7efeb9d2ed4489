import PatchSynth.Proofs.Rack.Room
import PatchSynth.Proofs.Wav.File

/-!
This module contains what a pull does to the files of recorders. A file that only one node is
recorded to gets the block of this node if the pull fills the node, and stays as it is if not.
-/

namespace PatchSynth
namespace Rack

def fileOf (rack : Rack) (id : Nat) : Option Way :=
  (rack.nodes[id]?.bind (·.recorder)).map (·.file)

def Alone (rack : Rack) (id : Nat) (file : Way) : Prop :=
  ∀ other, other ≠ id → rack.fileOf other ≠ some file

variable {request : Request} {rack next : Rack} {id : Nat} {file : Way}

theorem fileOf_eq {node : Node} {recorder : Recorder} (hnode : rack.nodes[id]? = some node)
    (hrecorder : node.recorder = some recorder) : rack.fileOf id = some recorder.file := by
  simp [fileOf, hnode, hrecorder]

theorem file_filled (result : Fill) (node : Node) :
    (Step.filled request result node).recorder.map (·.file) = node.recorder.map (·.file) := by
  rw [recorder_filled]
  cases node.recorder with
  | none => rfl
  | some recorder => simp

theorem Step.fileOf_eq (h : Step request id rack next) : next.fileOf = rack.fileOf := by
  funext other
  unfold fileOf
  by_cases hid : id = other
  · subst hid
    obtain ⟨node, hnode, -, htouch | ⟨result, -, -, hfill⟩⟩ := h.nodes_cases
    · rw [htouch, if_pos rfl, hnode]
      rfl
    · rw [hfill, if_pos rfl, hnode]
      exact file_filled result node
  · rw [h.nodes_of_ne hid]

theorem Steps.fileOf_eq {among : Nat → Prop} (h : Steps request among rack next) :
    next.fileOf = rack.fileOf := by
  apply h.keep (P := fun next => next.fileOf = rack.fileOf)
  · intro id current next hid hstep hinv
    rw [hstep.fileOf_eq, hinv]
  · rfl

theorem files_recordBlock {node : Node} (h : rack.nodes[id]? = some node) (frames : Nat) :
    (rack.recordBlock id frames).2.files =
      match node.recorder with
      | none => rack.files
      | some recorder => (recorder.writeBlock (node.block frames) rack.files).2.2 := by
  unfold recordBlock
  cases hrecorder : node.recorder with
  | none => simp only [h, hrecorder]
  | some recorder => simp only [h, hrecorder]

theorem Step.files_cases (h : Step request id rack next) :
    ∃ node, rack.nodes[id]? = some node ∧ node.isStale request.timestamp = true ∧
      ((next.nodes[id]? = some node.touch ∧ next.files = rack.files) ∨
        ∃ result : Fill,
          (node.device.map (rack.feed request.frames)).fill request node.phase = .ok result ∧
          next.nodes[id]? = some (Step.filled request result node) ∧
          next.files =
            match node.recorder with
            | none => rack.files
            | some recorder =>
              (recorder.writeBlock ((node.store request.timestamp result).block request.frames)
                rack.files).2.2) := by
  cases h with
  | @touch _ _ node hnode hstale =>
    refine ⟨node, hnode, hstale, Or.inl ⟨?_, rfl⟩⟩
    rw [getElem?_update, if_pos rfl, hnode]
    rfl
  | @fill _ _ node result hnode hstale hreads hfill =>
    refine ⟨node, hnode, hstale, Or.inr ⟨result, hfill, ?_, ?_⟩⟩
    · rw [Step.nodes_fill hnode, if_pos rfl]
    · have hstored : (rack.update id (·.store request.timestamp result)).nodes[id]?
          = some (node.store request.timestamp result) := by
        rw [getElem?_update, if_pos rfl, hnode]
        rfl
      rw [files_recordBlock hstored]
      rfl

theorem Step.lookup_of_ne (h : Step request id rack next) (hfile : rack.fileOf id ≠ some file) :
    next.files.contents.lookup file = rack.files.contents.lookup file := by
  obtain ⟨node, hnode, -, ⟨-, hfiles⟩ | ⟨result, -, -, hfiles⟩⟩ := h.files_cases
  · rw [hfiles]
  · rw [hfiles]
    cases hrecorder : node.recorder with
    | none => rfl
    | some recorder =>
      apply Recorder.lookup_writeBlock_of_ne
      rintro rfl
      exact hfile (Rack.fileOf_eq hnode hrecorder)

theorem Steps.lookup_of_ne {among : Nat → Prop} (h : Steps request among rack next)
    (hfile : ∀ id, among id → rack.fileOf id ≠ some file) :
    next.files.contents.lookup file = rack.files.contents.lookup file := by
  have hkeep : next.fileOf = rack.fileOf ∧
      next.files.contents.lookup file = rack.files.contents.lookup file := by
    apply h.keep (P := fun next => next.fileOf = rack.fileOf ∧
      next.files.contents.lookup file = rack.files.contents.lookup file)
    · intro id current next hid hstep hinv
      refine ⟨by rw [hstep.fileOf_eq, hinv.1], ?_⟩
      rw [hstep.lookup_of_ne, hinv.2]
      rw [hinv.1]
      exact hfile id hid
    · exact ⟨rfl, rfl⟩
  exact hkeep.2

structure Taping (request : Request) (id channels : Nat) (recorder : Recorder) (data : List UInt8)
    (current : Rack) : Prop where
  wellFormed : current.WellFormed
  alone : current.Alone id recorder.file
  node : ∃ now recorder' data', current.nodes[id]? = some now ∧ now.recorder = some recorder' ∧
    recorder'.file = recorder.file ∧ recorder'.scaler = recorder.scaler ∧
    recorder'.Holds current.files channels data' ∧
    (data' = data ∨
      now.isStale request.timestamp = false ∧
        data' = data ++ recorder.pcm (now.block request.frames))

theorem Taping.step {other channels : Nat} {recorder : Recorder} {data : List UInt8}
    (h : Taping request id channels recorder data rack) (hframes : request.frames ≤ maxFrames)
    (hstep : Step request other rack next) : Taping request id channels recorder data next := by
  have halone : next.Alone id recorder.file := by
    unfold Alone
    rw [hstep.fileOf_eq]
    exact h.alone
  refine ⟨h.wellFormed.step hframes hstep, halone, ?_⟩
  obtain ⟨now, recorder', data', hnow, hrecorder, hfile, hscaler, hholds, hdata⟩ := h.node
  by_cases hid : other = id
  · subst hid
    obtain ⟨node, hnode, hstale, ⟨htouch, hfiles⟩ | ⟨result, hfill, hnext, hfiles⟩⟩ :=
      hstep.files_cases
    · rw [hnow] at hnode
      cases hnode
      rw [hfiles]
      exact ⟨_, recorder', data', htouch, hrecorder, hfile, hscaler, hholds, hdata⟩
    · rw [hnow] at hnode
      cases hnode
      -- A node that is stale before the step is filled by it for the first time in this pull, so
      -- that its file holds the old data still.
      have hdata : data' = data := by
        obtain hdata | ⟨hfresh, -⟩ := hdata
        · exact hdata
        · rw [hstale] at hfresh
          cases hfresh
      have hsound := h.wellFormed.sound hnow
      have hstored := Node.sound_store hsound hframes hfill
      have hwhole : ((now.store request.timestamp result).block request.frames).size
          % now.device.channels = 0 :=
        Node.whole_block hstored hframes
      have hholds' := hholds.take (hsound.inOrder _ hrecorder) now.device.channels_le_two hwhole
      rw [hdata] at hholds'
      have htaken : (Step.filled request result now).recorder = some (recorder'.take
          ((now.store request.timestamp result).block request.frames)).2 := by
        rw [recorder_filled, hrecorder]
        rfl
      refine ⟨_, _, data ++ recorder'.gain ((now.store request.timestamp result).block
        request.frames), hnext, htaken, ?_, ?_, ?_, ?_⟩
      · rw [Recorder.file_take, hfile]
      · rw [Recorder.scaler_take, hscaler]
      · rw [hfiles, hrecorder]
        exact hholds'
      · rw [block_filled]
        have hpcm : ∀ block, recorder'.pcm block = recorder.pcm block := by
          intro block
          simp only [Recorder.pcm, hscaler]
        rw [← hpcm]
        unfold Recorder.gain
        split
        next => exact Or.inl (List.append_nil _)
        next => exact Or.inr ⟨isStale_filled request result now, rfl⟩
  · have hlookup := hstep.lookup_of_ne (h.alone other hid)
    rw [← hfile] at hlookup
    refine ⟨now, recorder', data', ?_, hrecorder, hfile, hscaler, ?_, hdata⟩
    · rw [hstep.nodes_of_ne hid, hnow]
    · exact hholds.of_lookup_eq hlookup

theorem WellFormed.holds_refresh (h : rack.WellFormed) (hframes : request.frames ≤ maxFrames)
    {root channels : Nat} (hok : (rack.refresh request root).1 = .ok ())
    (hreaches : rack.Reaches root id) {node : Node} (hnode : rack.nodes[id]? = some node)
    (hstale : node.isStale request.timestamp = true) {recorder : Recorder}
    (hrecorder : node.recorder = some recorder) (halone : rack.Alone id recorder.file)
    {data : List UInt8} (hholds : recorder.Holds rack.files channels data) {after : Node}
    (hafter : (rack.refresh request root).2.nodes[id]? = some after) :
    (recorder.take (after.block request.frames)).2.Holds (rack.refresh request root).2.files
      channels (data ++ recorder.pcm (after.block request.frames)) := by
  have hstart : Taping request id channels recorder data rack :=
    ⟨h, halone, node, recorder, data, hnode, hrecorder, rfl, rfl, hholds, Or.inl rfl⟩
  have hend : Taping request id channels recorder data (rack.refresh request root).2 := by
    apply (steps_refresh request root rack).1.keep (P := Taping request id channels recorder data)
    · intro other current next _ hstep hcurrent
      exact hcurrent.step hframes hstep
    · exact hstart
  obtain ⟨now, recorder', data', hnow, hrecorder', -, -, hholds', hdata⟩ := hend.node
  obtain ⟨filled, hfilled, -, -, htaken, htake⟩ := h.node_refresh hframes hok hreaches hnode hstale
  rw [hafter] at hnow hfilled
  cases hnow
  cases hfilled
  rw [htaken, hrecorder] at hrecorder'
  cases hrecorder'
  obtain hdata | ⟨-, hdata⟩ := hdata
  · -- Nothing was written, which happens to an empty block only.
    obtain ⟨old, hold, hdevice, -⟩ := exists_of_shape (shape_refresh request rack root) hafter
    rw [hnode] at hold
    cases hold
    have hwhole : (after.block request.frames).size % node.device.channels = 0 := by
      rw [hdevice]
      exact Node.whole_block ((h.refresh hframes root).sound hafter) hframes
    have hwritten := Recorder.written_take ((h.sound hnode).inOrder _ hrecorder) hwhole
      (htake _ hrecorder)
    have hbefore := hholds.length_eq
    have hlater := hholds'.length_eq
    rw [hdata, hwritten] at hlater
    have hempty : recorder.pcm (after.block request.frames) = [] := by
      rw [← List.length_eq_zero_iff, Recorder.length_pcm]
      omega
    rw [hempty, List.append_nil, ← hdata]
    exact hholds'
  · rw [← hdata]
    exact hholds'

theorem Steps.eq_of_unplayed {among : Nat → Prop} (h : Steps request among rack next)
    (hunplayed : next.Unplayed) : next = rack := by
  cases h with
  | refl => rfl
  | tail _ hlast =>
    obtain ⟨id, -, hlast⟩ := hlast
    obtain ⟨node, -, -, htouch | ⟨result, -, -, hfill⟩⟩ := hlast.nodes_cases
    · have hfills := (hunplayed id node.touch (by rw [htouch, if_pos rfl])).2
      simp [Node.touch] at hfills
    · have hlast := (hunplayed id _ (by rw [hfill, if_pos rfl])).1
      simp [Step.filled, Node.store] at hlast

theorem Unplayed.of_update_recorder {recorder : Option Recorder}
    (h : (rack.update id fun node => { node with recorder := recorder }).Unplayed) :
    rack.Unplayed := by
  intro other node hnode
  have hupdate := getElem?_update rack id other fun node => { node with recorder := recorder }
  rw [hnode] at hupdate
  by_cases hid : id = other
  · rw [if_pos hid] at hupdate
    exact h other { node with recorder := recorder } hupdate
  · rw [if_neg hid] at hupdate
    exact h other node hupdate

theorem Unplayed.of_record {path : String} {scaler : Float32}
    (h : (rack.record id path scaler).2.Unplayed) : rack.Unplayed := by
  obtain heq | ⟨_, recorder, files, -, -, heq⟩ := rack.snd_record_cases id path scaler
  · rw [heq] at h
    exact h
  · rw [heq] at h
    have hupdate : (rack.update id fun node => { node with recorder := some recorder }).Unplayed :=
      h
    exact hupdate.of_update_recorder

theorem Unplayed.of_stop (h : (rack.stop id).2.Unplayed) : rack.Unplayed := by
  obtain heq | ⟨files, heq⟩ := rack.snd_stop_cases id
  · rw [heq] at h
    exact h
  · rw [heq] at h
    have hupdate : (rack.update id fun node => { node with recorder := none }).Unplayed := h
    exact hupdate.of_update_recorder

def Blank (rack : Rack) : Prop :=
  ∀ (id : Nat) (node : Node) (recorder : Recorder),
    rack.nodes[id]? = some node → node.recorder = some recorder →
      ∃ channels, recorder.Holds rack.files channels []

theorem Blank.record (h : rack.Blank) (path : String) (scaler : Float32) :
    (rack.record id path scaler).2.Blank := by
  obtain heq | ⟨node, taken, files, hnode, hcreate, heq⟩ := rack.snd_record_cases id path scaler
  · rw [heq]
    exact h
  · rw [heq]
    intro other now recorder hnow hrecorder
    have hcases : taken = recorder ∨ ∃ old, rack.nodes[other]? = some old ∧
        old.recorder = some recorder := by
      have hupdate : (rack.update id fun node =>
          { node with recorder := some taken }).nodes[other]? = some now := hnow
      obtain ⟨old, hold, rfl | ⟨-, rfl⟩⟩ := nodes_update_cases hupdate
      · exact Or.inr ⟨now, hold, hrecorder⟩
      · cases hrecorder
        exact Or.inl rfl
    obtain rfl | ⟨old, hold, hrecorder⟩ := hcases
    · exact ⟨_, Recorder.holds_create node.device.channels_le_two hcreate⟩
    · obtain ⟨channels, hholds⟩ := h other old recorder hold hrecorder
      exact Recorder.Holds.create node.device.channels_le_two hcreate hholds

theorem recorder_of_stop {other : Nat} {node : Node} {recorder : Recorder}
    (hnode : (rack.stop id).2.nodes[other]? = some node)
    (hrecorder : node.recorder = some recorder) :
    ∃ old, rack.nodes[other]? = some old ∧ old.recorder = some recorder := by
  obtain heq | ⟨files, heq⟩ := rack.snd_stop_cases id
  · rw [heq] at hnode
    exact ⟨node, hnode, hrecorder⟩
  · rw [heq] at hnode
    have hupdate : (rack.update id fun node => { node with recorder := none }).nodes[other]?
        = some node := hnode
    obtain ⟨old, hold, rfl | ⟨-, rfl⟩⟩ := nodes_update_cases hupdate
    · exact ⟨node, hold, hrecorder⟩
    · cases hrecorder

theorem Blank.stop (h : rack.Blank) (hrack : rack.WellFormed) : (rack.stop id).2.Blank := by
  intro other now recorder hnow hrecorder
  obtain ⟨old, hold, hrecorder⟩ := recorder_of_stop hnow hrecorder
  obtain ⟨channels, hholds⟩ := h other old recorder hold hrecorder
  unfold Rack.stop
  split
  next => exact ⟨channels, hholds⟩
  next taken htaken =>
    rw [Option.bind_eq_some_iff] at htaken
    obtain ⟨node, hnode, htaken⟩ := htaken
    obtain ⟨channels', htakenHolds⟩ := h id node taken hnode htaken
    have hempty := htakenHolds.length_eq
    rw [List.length_nil] at hempty
    exact ⟨channels, hholds.finish ((hrack.sound hnode).inOrder taken htaken)
      node.device.channels_le_two (by omega)⟩

theorem Reachable.blank (h : rack.Reachable) (hunplayed : rack.Unplayed) : rack.Blank := by
  obtain ⟨files, h⟩ := h
  -- Every operation that could write samples plays a node, so the rack before it is unplayed too.
  induction h with
  | refl =>
    intro id node recorder hnode
    simp at hnode
  | @add rack device _ _ ih =>
    have hold : rack.Unplayed := by
      intro id node hnode
      obtain ⟨hlt, -⟩ := Array.getElem?_eq_some_iff.1 hnode
      exact hunplayed id node (by rw [getElem?_add_of_lt rack device hlt, hnode])
    intro id node recorder hnode hrecorder
    obtain ⟨-, hnode⟩ | ⟨-, rfl⟩ := nodes_add_cases hnode
    · exact ih hold id node recorder hnode hrecorder
    · cases hrecorder
  | output _ request id ih =>
    rw [nodes_output] at *
    rw [(steps_refresh _ id _).1.eq_of_unplayed hunplayed] at *
    exact ih hunplayed
  | record _ id path scaler ih =>
    apply Blank.record
    exact ih hunplayed.of_record
  | stop hrack id ih =>
    apply Blank.stop _ (hrack.wellFormed (WellFormed.empty files))
    exact ih hunplayed.of_stop

end Rack
end PatchSynth
