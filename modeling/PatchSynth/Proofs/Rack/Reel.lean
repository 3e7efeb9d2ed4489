import PatchSynth.Proofs.Patch.Record
import PatchSynth.Proofs.Pcm
import PatchSynth.Proofs.Rack.History
import PatchSynth.Proofs.Rack.Later
import PatchSynth.Proofs.Wav.Content

/-!
This module contains what stands in the file of a recording, whatever is done with the rack: the
samples of the blocks that the node was filled with while it was recorded to this file.
-/

namespace PatchSynth

namespace Pcm

def ofBlocks (scaler : Float32) (blocks : List Block) : List UInt8 :=
  ((blocks.flatMap Array.toList).map (ofSample scaler)).flatMap bytes

theorem ofBlocks_append (scaler : Float32) (blocks more : List Block) :
    ofBlocks scaler (blocks ++ more) = ofBlocks scaler blocks ++ ofBlocks scaler more := by
  simp [ofBlocks]

@[simp]
theorem length_ofBlocks (scaler : Float32) (blocks : List Block) :
    (ofBlocks scaler blocks).length = 2 * (blocks.map Array.size).sum := by
  rw [ofBlocks, Wav.length_flatMap_bytes]
  simp [List.length_flatMap]

theorem samplesOfBytes_ofBlocks (scaler : Float32) (blocks : List Block) :
    (Wav.samplesOfBytes (ofBlocks scaler blocks)).map Int16.toInt
      = (blocks.flatMap Array.toList).map (scaled scaler) := by
  rw [ofBlocks, Wav.samplesOfBytes_flatMap, List.map_map]
  exact List.map_congr_left fun sample _ => toInt_ofSample_eq scaler sample

end Pcm

namespace Wav

def fit (kept : List Block) (block : Block) : List Block :=
  if maxSamples < (kept.map Array.size).sum + block.size then kept else kept ++ [block]

/--
The blocks that get into a file if one after the other is written to it.
-/
def fitting (blocks : List Block) : List Block :=
  blocks.foldl fit []

theorem foldl_fit_of_le {kept blocks : List Block}
    (h : (kept.map Array.size).sum + (blocks.map Array.size).sum ≤ maxSamples) :
    blocks.foldl fit kept = kept ++ blocks := by
  induction blocks generalizing kept with
  | nil => exact (List.append_nil kept).symm
  | cons block rest ih =>
    rw [List.map_cons, List.sum_cons] at h
    rw [List.foldl_cons, fit, if_neg (by omega), ih, List.append_assoc, List.singleton_append]
    simp only [List.map_append, List.map_cons, List.map_nil, List.sum_append, List.sum_cons,
      List.sum_nil]
    omega

theorem fitting_of_le {blocks : List Block} (h : (blocks.map Array.size).sum ≤ maxSamples) :
    fitting blocks = blocks := by
  apply foldl_fit_of_le
  simpa using h

end Wav

theorem Recorder.ofBlocks_gain {recorder : Recorder} {files : Files} {channels : Nat}
    {kept : List Block} (h : recorder.Holds files channels (Pcm.ofBlocks recorder.scaler kept))
    (block : Block) :
    Pcm.ofBlocks recorder.scaler kept ++ recorder.gain block
      = Pcm.ofBlocks recorder.scaler (Wav.fit kept block) := by
  have hwritten : recorder.written = (kept.map Array.size).sum := by
    have hlength := h.length_eq
    rw [Pcm.length_ofBlocks] at hlength
    omega
  rw [gain, Wav.fit, hwritten]
  split
  next => rw [List.append_nil]
  next =>
    rw [Pcm.ofBlocks_append, pcm_eq]
    rfl

theorem Filling.Genuine.recorder_eq {filling : Filling} {id : Nat} (h : filling.Genuine id) :
    filling.after.recorder
      = filling.before.recorder.map fun recorder => (recorder.take filling.block).2 := by
  obtain ⟨result, fills, -, hafter⟩ := h.filledAs.fill
  have hblock : filling.block
      = (filling.before.store filling.request.timestamp result).block filling.request.frames := by
    rw [block, hafter]
    exact Rack.block_filled result filling.request.frames
  rw [hafter, hblock]
  exact Rack.recorder_filled result

namespace Rack

/--
The fills of a node in calls that are made while it is recorded to a file. A call neither starts nor
stops a recording.
-/
def tapes (rack : Rack) (id : Nat) (way : Way) (pulls : List (Request × Nat)) : List Filling :=
  if rack.fileOf id = some way then rack.fillings id pulls else []

/--
Whether a file holds the blocks of a node that is recorded to it, or that was, and whether no other
node is.
-/
structure Reel (id : Nat) (way : Way) (scaler : Float32) (channels : Nat) (kept : List Block)
    (rack : Rack) : Prop where
  wellFormed : rack.WellFormed
  alone : rack.Alone id way
  channels_eq : ∃ node, rack.nodes[id]? = some node ∧ node.device.channels = channels
  holds : ∀ {node : Node} {recorder : Recorder}, rack.nodes[id]? = some node →
    node.recorder = some recorder → recorder.file = way →
      recorder.scaler = scaler ∧
        recorder.Holds rack.files channels (Pcm.ofBlocks scaler kept)
  bytes_eq : ∃ bytes, rack.files.contents.lookup way = some bytes ∧
    bytes.toList
      = Wav.header channels (Pcm.ofBlocks scaler kept).length ++ Pcm.ofBlocks scaler kept

variable {rack next : Rack} {id : Nat} {way : Way} {scaler : Float32} {channels : Nat}
  {kept : List Block}

theorem tapes_nil (rack : Rack) (id : Nat) (way : Way) : rack.tapes id way [] = [] := by
  unfold tapes
  split <;> rfl

theorem tapes_sublist (rack : Rack) (id : Nat) (way : Way) (pulls : List (Request × Nat)) :
    (rack.tapes id way pulls).Sublist (rack.fillings id pulls) := by
  unfold tapes
  split
  next => exact List.Sublist.refl _
  next => exact List.nil_sublist _

theorem fileOf_output (rack : Rack) (request : Request) (root : Nat) :
    (rack.output request root).2.fileOf = rack.fileOf := by
  rw [nodes_output]
  exact (steps_refresh _ root rack).1.fileOf_eq

theorem exists_of_fileOf (h : rack.fileOf id = some way) :
    ∃ node recorder, rack.nodes[id]? = some node ∧ node.recorder = some recorder ∧
      recorder.file = way := by
  rw [fileOf, Option.map_eq_some_iff] at h
  obtain ⟨recorder, hrecorder, hfile⟩ := h
  rw [Option.bind_eq_some_iff] at hrecorder
  obtain ⟨node, hnode, hrecorder⟩ := hrecorder
  exact ⟨node, recorder, hnode, hrecorder, hfile⟩

theorem fileOf_outputs (rack : Rack) (pulls : List (Request × Nat)) :
    (rack.outputs pulls).fileOf = rack.fileOf := by
  induction pulls generalizing rack with
  | nil => rfl
  | cons pull rest ih => exact (ih _).trans (rack.fileOf_output pull.1 pull.2)

theorem nodes_of_add {device : Device Nat} {node : Node} {recorder : Recorder}
    (hnode : (rack.add device).2.nodes[id]? = some node)
    (hrecorder : node.recorder = some recorder) : rack.nodes[id]? = some node := by
  obtain ⟨-, hold⟩ | ⟨-, rfl⟩ := nodes_add_cases hnode
  · exact hold
  · cases hrecorder

theorem fileOf_of_add {device : Device Nat} (h : (rack.add device).2.fileOf id = some way) :
    rack.fileOf id = some way := by
  obtain ⟨node, recorder, hnode, hrecorder, rfl⟩ := exists_of_fileOf h
  exact fileOf_eq (nodes_of_add hnode hrecorder) hrecorder

theorem fileOf_of_stop {other : Nat} (h : (rack.stop other).2.fileOf id = some way) :
    rack.fileOf id = some way := by
  obtain ⟨node, recorder, hnode, hrecorder, rfl⟩ := exists_of_fileOf h
  obtain ⟨old, hold, hrecorder⟩ := recorder_of_stop hnode hrecorder
  exact fileOf_eq hold hrecorder

theorem snd_record_of_error {path : String} {e : Error}
    (h : rack.record id path scaler = (.error e, next)) : next = rack := by
  unfold record at h
  split at h
  next =>
    cases h
    rfl
  next =>
    split at h
    next => cases h
    next =>
      split at h
      next =>
        cases h
        rfl
      next => cases h

theorem fileOf_of_record {path : String} (hne : Path.way path ≠ way) {other : Nat}
    (h : (rack.record id path scaler).2.fileOf other = some way) :
    rack.fileOf other = some way := by
  cases hresult : rack.record id path scaler with
  | mk result next =>
    rw [hresult] at h
    cases result with
    | error e =>
      rw [snd_record_of_error hresult] at h
      exact h
    | ok _ =>
      obtain ⟨node, hnode, ⟨-, rfl⟩ | ⟨hidle, -⟩⟩ := record_cases hresult
      · exact h
      · rw [fileOf_record hresult (by simp [fileOf, hnode, hidle])] at h
        split at h
        next => exact absurd (Option.some.inj h) hne
        next => exact h

namespace Reel

theorem channels_of_later (h : rack.Reel id way scaler channels kept) (hlater : rack.Later next) :
    ∃ node, next.nodes[id]? = some node ∧ node.device.channels = channels := by
  obtain ⟨node, hnode, rfl⟩ := h.channels_eq
  obtain ⟨now, hnow, hdevice⟩ := hlater.device_eq hnode
  exact ⟨now, hnow, by rw [hdevice]⟩

theorem of_holds {node : Node} {recorder : Recorder} (hrack : rack.WellFormed)
    (halone : rack.Alone id recorder.file) (hnode : rack.nodes[id]? = some node)
    (hrecorder : node.recorder = some recorder) (hscaler : recorder.scaler = scaler)
    (hholds : recorder.Holds rack.files node.device.channels (Pcm.ofBlocks scaler kept)) :
    rack.Reel id recorder.file scaler node.device.channels kept := by
  refine ⟨hrack, halone, ⟨node, hnode, rfl⟩, ?_, hholds.bytes_eq⟩
  intro now other hnow hother _
  rw [hnode] at hnow
  cases hnow
  rw [hrecorder] at hother
  cases hother
  exact ⟨hscaler, hholds⟩

theorem of_lookup_eq (h : rack.Reel id way scaler channels kept) (hlater : rack.Later next)
    (hfile : ∀ other, other ≠ id → next.fileOf other = some way → rack.fileOf other = some way)
    (hrecorder : ∀ {now : Node} {recorder : Recorder}, next.nodes[id]? = some now →
      now.recorder = some recorder → recorder.file = way →
        ∃ old, rack.nodes[id]? = some old ∧ old.recorder = some recorder)
    (hlookup : next.files.contents.lookup way = rack.files.contents.lookup way) :
    next.Reel id way scaler channels kept := by
  refine ⟨hlater.wellFormed h.wellFormed, ?_, h.channels_of_later hlater, ?_, ?_⟩
  · intro other hne hother
    exact h.alone other hne (hfile other hne hother)
  · intro now recorder hnow htaken hway
    obtain ⟨old, hold, hrecorder⟩ := hrecorder hnow htaken hway
    obtain ⟨hscaler, hholds⟩ := h.holds hold hrecorder hway
    refine ⟨hscaler, hholds.of_lookup_eq ?_⟩
    rw [hway]
    exact hlookup
  · rw [hlookup]
    exact h.bytes_eq

theorem output_of_ne (h : rack.Reel id way scaler channels kept) (request : Request) (root : Nat)
    (hne : rack.fileOf id ≠ some way) :
    (rack.output request root).2.Reel id way scaler channels kept := by
  have hfiles := rack.fileOf_output request root
  -- Nobody writes to the file any more.
  have hnobody : ∀ other, rack.fileOf other ≠ some way := by
    intro other
    by_cases hid : other = id
    · rw [hid]
      exact hne
    · exact h.alone other hid
  apply h.of_lookup_eq (Later.refl.output request root)
  · intro other _ hother
    rw [hfiles] at hother
    exact hother
  · intro now recorder hnow hrecorder hway
    have hfile := fileOf_eq hnow hrecorder
    rw [hfiles, hway] at hfile
    exact absurd hfile hne
  · rw [nodes_output]
    exact (steps_refresh _ root rack).1.lookup_of_ne fun other _ => hnobody other

theorem output_of_eq (h : rack.Reel id way scaler channels kept) (request : Request) (root : Nat)
    (hfile : rack.fileOf id = some way) :
    (rack.output request root).2.Reel id way scaler channels
      (((rack.fillingOf request root id).toList.map Filling.block).foldl Wav.fit kept) := by
  obtain ⟨node, recorder, hnode, hrecorder, rfl⟩ := exists_of_fileOf hfile
  obtain ⟨rfl, hholds⟩ := h.holds hnode hrecorder rfl
  obtain ⟨found, hfound, rfl⟩ := h.channels_eq
  rw [hnode] at hfound
  cases hfound
  have hnext := h.wellFormed.output request root
  have halone : (rack.output request root).2.Alone id recorder.file := by
    intro other hne
    rw [rack.fileOf_output]
    exact h.alone other hne
  obtain ⟨filled, hfilled⟩ := rack.exists_hasFilled request root
  by_cases hmem : id ∈ filled
  · obtain ⟨before, after, hbefore, hafter, hfilledAs, heq⟩ := hfilled.fillingOf_of_mem hmem
    rw [hnode] at hbefore
    cases hbefore
    have hgenuine : Filling.Genuine { request := request.clamped, before := node, after
                                      rack := (rack.output request root).2 } id :=
      ⟨hnext, Nat.min_le_right _ _, hafter, hfilledAs⟩
    have hblock : (rack.output request root).2.blockOf id request.clamped.frames
        = after.block request.clamped.frames := by
      rw [blockOf, hafter]
    have htaken := hfilled.holds_of_mem h.wellFormed hnext (Nat.min_le_right _ _) hmem hnode
      hrecorder h.alone hholds
    rw [recorder.ofBlocks_gain hholds, hblock, ← hgenuine.device_eq] at htaken
    have hnow := hgenuine.recorder_eq
    rw [hrecorder, Option.map_some] at hnow
    rw [heq, Option.toList_some, List.map_singleton, List.foldl_cons, List.foldl_nil,
      ← hgenuine.device_eq]
    have hfile := recorder.file_take (after.block request.clamped.frames)
    rw [← hfile] at halone ⊢
    exact of_holds hnext halone hafter hnow (recorder.scaler_take _) htaken
  · rw [hfilled.fillingOf_of_not_mem hmem, Option.toList_none, List.map_nil, List.foldl_nil]
    obtain ⟨fills, hsame⟩ := hfilled.kept hmem hnode
    have hreel := of_holds hnext halone hsame hrecorder rfl
      (hfilled.holds_of_not_mem hmem h.alone hholds)
    exact hreel

theorem outputs (h : rack.Reel id way scaler channels kept) (pulls : List (Request × Nat)) :
    (rack.outputs pulls).Reel id way scaler channels
      (((rack.tapes id way pulls).map Filling.block).foldl Wav.fit kept) := by
  induction pulls generalizing rack kept with
  | nil =>
    rw [tapes_nil]
    exact h
  | cons pull rest ih =>
    have hfiles := rack.fileOf_output pull.1 pull.2
    by_cases hfile : rack.fileOf id = some way
    · have hrest := ih (h.output_of_eq pull.1 pull.2 hfile)
      rw [tapes, hfiles, if_pos hfile] at hrest
      rw [tapes, if_pos hfile, fillings, List.map_append, List.foldl_append]
      exact hrest
    · have hrest := ih (h.output_of_ne pull.1 pull.2 hfile)
      rw [tapes, hfiles, if_neg hfile] at hrest
      rw [tapes, if_neg hfile]
      exact hrest

theorem add (h : rack.Reel id way scaler channels kept) {device : Device Nat}
    (hinputs : ∀ input ∈ device.inputs, input < rack.nodes.size) :
    (rack.add device).2.Reel id way scaler channels kept := by
  apply h.of_lookup_eq (Later.refl.add hinputs)
  · intro other _ hother
    exact fileOf_of_add hother
  · intro now recorder hnow hrecorder _
    exact ⟨now, nodes_of_add hnow hrecorder, hrecorder⟩
  · rfl

theorem lookup_stop (h : rack.Reel id way scaler channels kept) (other : Nat) :
    (rack.stop other).2.files.contents.lookup way = rack.files.contents.lookup way := by
  unfold Rack.stop
  split
  next => rfl
  next recorder hrecorder =>
    rw [Option.bind_eq_some_iff] at hrecorder
    obtain ⟨node, hnode, hrecorder⟩ := hrecorder
    by_cases hway : recorder.file = way
    · -- The recording is the one to the file, and its sizes are complete.
      have hid : other = id := by
        by_contra hne
        apply h.alone other hne
        rw [fileOf_eq hnode hrecorder, hway]
      subst hid
      obtain ⟨-, hholds⟩ := h.holds hnode hrecorder hway
      exact hholds.lookup_finish ((h.wellFormed.sound hnode).inOrder recorder hrecorder)
        node.device.channels_le_two way
    · exact Recorder.lookup_finish_of_ne (Ne.symm hway)

theorem stop (h : rack.Reel id way scaler channels kept) (other : Nat) :
    (rack.stop other).2.Reel id way scaler channels kept := by
  apply h.of_lookup_eq (Later.refl.stop other)
  · intro third _ hthird
    exact fileOf_of_stop hthird
  · intro now recorder hnow hrecorder _
    exact recorder_of_stop hnow hrecorder
  · exact h.lookup_stop other

theorem record (h : rack.Reel id way scaler channels kept) (other : Nat) (path : String)
    (scaler' : Float32)
    (hspared : ∀ third, (rack.record other path scaler').2.fileOf third = some way →
      rack.fileOf third = some way) :
    (rack.record other path scaler').2.Reel id way scaler channels kept := by
  cases hresult : rack.record other path scaler' with
  | mk result next =>
    rw [hresult] at hspared
    cases result with
    | error e =>
      rw [snd_record_of_error hresult]
      exact h
    | ok _ =>
      have hlater : rack.Later (rack.record other path scaler').2 :=
        Later.refl.record other path scaler'
      rw [hresult] at hlater
      obtain ⟨node, hnode, ⟨-, rfl⟩ | ⟨hidle, recorder, hcreate, hnodes⟩⟩ := record_cases hresult
      · exact h
      · have hnone : rack.fileOf other = none := by simp [fileOf, hnode, hidle]
        obtain ⟨-, htarget, hafter⟩ := Recorder.of_create hcreate
        have hrecorderWay := way_of_target htarget
        -- Otherwise the node would be one more that is recorded to the file.
        have hway : way ≠ recorder.file := by
          rintro rfl
          have hfile := fileOf_record hresult hnone other
          rw [if_pos rfl, ← hrecorderWay] at hfile
          rw [hspared other hfile] at hnone
          cases hnone
        apply h.of_lookup_eq hlater
        · intro third _ hthird
          exact hspared third hthird
        · intro now recorder' hnow hrecorder' hfile
          rw [hnodes] at hnow
          split at hnow
          next =>
            cases hnow
            cases hrecorder'
            exact absurd hfile.symm hway
          next => exact ⟨now, hnow, hrecorder'⟩
        · rw [hafter, Files.lookup_store, if_neg hway]

theorem of_record {path : String} (h : rack.WellFormed)
    (hrecord : rack.record id path scaler = (.ok (), next)) (hidle : rack.fileOf id = none)
    (hfree : ∀ other, rack.fileOf other ≠ some (Path.way path)) {node : Node}
    (hnode : rack.nodes[id]? = some node) :
    next.Reel id (Path.way path) scaler node.device.channels [] := by
  have hlater : rack.Later next := later_of_record hrecord
  have hnone : node.recorder = none := by
    simpa [fileOf, hnode] using hidle
  obtain ⟨found, hfound, ⟨hbusy, -⟩ | ⟨-, recorder, hcreate, hnodes⟩⟩ := record_cases hrecord
  · rw [hnode] at hfound
    cases hfound
    exact absurd hnone hbusy
  · rw [hnode] at hfound
    cases hfound
    obtain ⟨hliteral, htarget, -⟩ := Recorder.of_create hcreate
    have hway := way_of_target htarget
    have hholds : recorder.Holds next.files node.device.channels (Pcm.ofBlocks scaler []) :=
      Recorder.holds_create node.device.channels_le_two hcreate
    have halone : next.Alone id recorder.file := by
      intro other hne
      rw [fileOf_record hrecord hidle, if_neg hne, hway]
      exact hfree other
    have hnow : next.nodes[id]? = some { node with recorder := some recorder } := by
      rw [hnodes, if_pos rfl]
    have hscaler : recorder.scaler = scaler := by rw [hliteral]
    have hnext : next.WellFormed := hlater.wellFormed h
    have hreel := of_holds hnext halone hnow rfl hscaler hholds
    rw [hway] at hreel
    exact hreel

end Reel

end Rack
end PatchSynth
