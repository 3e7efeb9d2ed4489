import PatchSynth.Proofs.Patch.Record
import PatchSynth.Proofs.Player.Run
import PatchSynth.Proofs.Rack.Release

/-!
This module contains what a run leaves in the files of recordings that were started before it, each
with a file of its own.
-/

namespace PatchSynth

theorem Recorder.file_takeAll {recorder taken : Recorder} {blocks : List Block}
    (h : recorder.takeAll blocks = .ok taken) : taken.file = recorder.file := by
  induction blocks generalizing recorder with
  | nil =>
    cases h
    rfl
  | cons block rest ih =>
    rw [takeAll] at h
    split at h
    next next htake =>
      have hnext : next = (recorder.take block).2 := by rw [htake]
      rw [ih h, hnext, file_take]
    next => cases h

namespace Player

variable {player last : Player} {patch played : Patch} {calls : List (Controls × Nat)}

theorem fileOf_advance (hrun : player.advance patch calls = (.ok (), last, played)) :
    played.rack.fileOf = patch.rack.fileOf := by
  induction calls generalizing player patch with
  | nil =>
    cases hrun
    rfl
  | cons call rest ih =>
    obtain ⟨controls, frames⟩ := call
    obtain ⟨-, hrest⟩ := advance_cons hrun
    rw [ih hrest, fileOf_render]

theorem wellFormed_advance (hrack : patch.rack.WellFormed)
    (hrun : player.advance patch calls = (.ok (), last, played)) : played.rack.WellFormed := by
  induction calls generalizing player patch with
  | nil =>
    cases hrun
    exact hrack
  | cons call rest ih =>
    obtain ⟨controls, frames⟩ := call
    obtain ⟨-, hrest⟩ := advance_cons hrun
    exact ih (wellFormed_render hrack controls frames) hrest

theorem holds_of_advance (hrack : patch.rack.WellFormed) (hapart : patch.rack.Apart [])
    (hrun : player.advance patch calls = (.ok (), last, played)) {id : Nat} {node : Node}
    {recorder : Recorder} (hnode : patch.rack.nodes[id]? = some node)
    (hrecorder : node.recorder = some recorder) (hstale : node.isStale player.clock = true) :
    ∃ after taken data, played.rack.nodes[id]? = some after ∧ after.recorder = some taken ∧
      taken.file = recorder.file ∧ taken.Holds played.rack.files node.device.channels data ∧
      (patch.rack.Reaches player.output id →
        data = (player.blocksOf id patch calls).flatMap recorder.pcm) ∧
      (¬ patch.rack.Reaches player.output id → data = []) := by
  have hfile := Rack.fileOf_eq hnode hrecorder
  have halone := hapart.alone hfile
  have hempty := hapart.holds hnode hrecorder
  by_cases hreaches : patch.rack.Reaches player.output id
  · obtain ⟨after, hafter, -, -, hrecorded⟩ :=
      filled_of_advance hrack hrun hreaches hnode hstale
    obtain ⟨taken, htaken, hafterRecorder, hholds⟩ := hrecorded recorder hrecorder
    have hholds := hholds node.device.channels [] halone hempty
    rw [List.nil_append] at hholds
    exact ⟨after, taken, _, hafter, hafterRecorder, Recorder.file_takeAll htaken, hholds,
      fun _ => rfl, fun h => absurd hreaches h⟩
  · obtain ⟨hnodes, hfiles⟩ := unfilled_of_advance hrun hreaches
    have hlookup := hfiles recorder.file halone hfile
    exact ⟨node, recorder, [], by rw [hnodes, hnode], hrecorder, rfl, hempty.of_lookup_eq hlookup,
      fun h => absurd h hreaches, fun _ => rfl⟩

theorem taped_of_advance (hrack : patch.rack.WellFormed) (hapart : patch.rack.Apart [])
    (hstale : ∀ (id : Nat) (node : Node), patch.rack.nodes[id]? = some node →
      node.isStale player.clock = true)
    (hrun : player.advance patch calls = (.ok (), last, played)) : played.rack.Taped := by
  refine ⟨wellFormed_advance hrack hrun, ?_⟩
  intro id now recorder hnow hrecorder
  have hfile := Rack.fileOf_eq hnow hrecorder
  rw [fileOf_advance hrun, Rack.fileOf, Option.map_eq_some_iff] at hfile
  obtain ⟨old, hold, -⟩ := hfile
  rw [Option.bind_eq_some_iff] at hold
  obtain ⟨node, hnode, hold⟩ := hold
  obtain ⟨after, taken, data, hafter, htaken, -, hholds, -⟩ :=
    holds_of_advance hrack hapart hrun hnode hold (hstale id node hnode)
  rw [hnow] at hafter
  cases hafter
  rw [hrecorder] at htaken
  cases htaken
  exact ⟨_, data, hholds⟩

theorem recording_of_advance (hrack : patch.rack.WellFormed) (hapart : patch.rack.Apart [])
    (hunplayed : patch.rack.Unplayed) (hrun : player.advance patch calls = (.ok (), last, played))
    {id : Nat} {way : Way} {scaler : Float32} (htag : patch.rack.tagOf id = some (way, scaler)) :
    ∃ (data : List UInt8) (bytes : Bytes),
      played.rack.files.contents.lookup way = some bytes ∧
      played.close.contents.lookup way = some bytes ∧
      bytes.toList = Wav.header (patch.rack.channelsOf id) data.length ++ data ∧
      (patch.rack.Reaches player.output id →
        data = ((player.blocksOf id patch calls).flatMap Array.toList).flatMap fun sample =>
          Pcm.bytes (Pcm.ofSample scaler sample)) ∧
      (¬ patch.rack.Reaches player.output id → data = []) := by
  have hstale : ∀ (id : Nat) (node : Node), patch.rack.nodes[id]? = some node →
      node.isStale player.clock = true := by
    intro id node hnode
    obtain ⟨hlast, -⟩ := hunplayed id node hnode
    simp [Node.isStale, hlast]
  obtain ⟨node, recorder, hnode, hrecorder, htag⟩ := Rack.tagOf_eq_some_iff.1 htag
  rw [Prod.mk.injEq] at htag
  obtain ⟨hfile, hscaler⟩ := htag
  obtain ⟨after, taken, data, -, -, htaken, hholds, hread, hunread⟩ :=
    holds_of_advance hrack hapart hrun hnode hrecorder (hstale id node hnode)
  obtain ⟨bytes, hbytes, hlist⟩ := hholds.bytes_eq
  have htaped := taped_of_advance hrack hapart hstale hrun
  have hclose := htaped.settles_release [] (played.dropped.toList ++ played.table.nodes)
  rw [htaken, hfile] at hbytes
  refine ⟨data, bytes, hbytes, ?_, ?_, ?_, hunread⟩
  · rw [Patch.close, hclose.lookup_eq, hbytes]
  · rw [hlist, Rack.channelsOf, hnode]
  · intro hreaches
    have hpcm : recorder.pcm = fun block => block.toList.flatMap fun sample =>
        Pcm.bytes (Pcm.ofSample scaler sample) := by
      funext block
      rw [Recorder.pcm, hscaler]
    rw [hread hreaches, hpcm, List.flatMap_assoc]

end Player
end PatchSynth
