import Mathlib
import PatchSynth.Rack.Pull

/-!
This module contains what becomes of a recorder when it is given a block. The files have no say in
it: whether a block is refused depends on the recorder and on the size of the block alone.
-/

namespace PatchSynth

@[simp]
theorem Wav.length_flatMap_bytes (samples : List Int16) :
    (samples.flatMap Pcm.bytes).length = 2 * samples.length := by
  induction samples with
  | nil => rfl
  | cons sample rest ih =>
    rw [List.flatMap_cons, List.length_append, ih, List.length_cons]
    simp only [Pcm.bytes, List.length_cons, List.length_nil]
    omega

def Recorder.take (recorder : Recorder) (block : Block) : Except FileError Unit × Recorder :=
  ((recorder.writeBlock block {}).1, (recorder.writeBlock block {}).2.1)

namespace Recorder

open Wav (Library Writer)

theorem fst_writeBlock (recorder : Recorder) (block : Block) (files : Files) :
    (recorder.writeBlock block files).1 = (recorder.take block).1 := by
  unfold take writeBlock
  dsimp only [Library.append, Library.flush, Writer.append, Writer.flush]
  split
  · rfl
  · split <;> rfl

theorem snd_writeBlock (recorder : Recorder) (block : Block) (files : Files) :
    (recorder.writeBlock block files).2.1 = (recorder.take block).2 := by
  unfold take writeBlock
  dsimp only [Library.append, Library.flush, Writer.append, Writer.flush]
  split
  · rfl
  · split <;> rfl

structure InOrder (recorder : Recorder) (channels : Nat) : Prop where
  channels_eq : recorder.writer.channels = channels
  whole : recorder.written % channels = 0
  count_eq : recorder.writer.count = recorder.written
  position_eq : recorder.writer.position = Wav.headerSize channels + 2 * recorder.written
  dueSize_eq : recorder.writer.dueSize = none

theorem InOrder.whole_add {recorder : Recorder} {block : Block} {channels : Nat}
    (h : recorder.InOrder channels) (hwhole : block.size % channels = 0) :
    (recorder.written + block.size) % channels = 0 := by
  have hwritten := Nat.dvd_of_mod_eq_zero h.whole
  have hblock := Nat.dvd_of_mod_eq_zero hwhole
  exact Nat.mod_eq_zero_of_dvd (Nat.dvd_add hwritten hblock)

theorem take_of_lt {recorder : Recorder} {block : Block}
    (h : Wav.maxSamples < recorder.written + block.size) :
    recorder.take block = (.error (.sizeLimit recorder.path), recorder) := by
  rw [take, writeBlock, if_pos h]

theorem take_of_le {recorder : Recorder} {block : Block} {channels : Nat}
    (h : recorder.InOrder channels) (hwhole : block.size % channels = 0)
    (hroom : recorder.written + block.size ≤ Wav.maxSamples) :
    recorder.take block
      = (.ok (),
          { recorder with
            written := recorder.written + block.size
            writer := { recorder.writer with
              count := recorder.written + block.size
              position := recorder.writer.position + 2 * block.size
              dueSize := none } }) := by
  have hlt : ¬ Wav.maxSamples < recorder.written + block.size := by omega
  have hmod : (recorder.written + block.size) % recorder.writer.channels = 0 := by
    rw [h.channels_eq]
    exact h.whole_add hwhole
  rw [take, writeBlock, if_neg hlt]
  simp only [Library.append, Library.flush, Writer.append, Writer.flush, Writer.isWhole,
    Wav.length_flatMap_bytes, List.length_map, Array.length_toList, h.count_eq, hmod,
    beq_self_eq_true, if_true]

theorem inOrder_take {recorder : Recorder} {block : Block} {channels : Nat}
    (h : recorder.InOrder channels) (hwhole : block.size % channels = 0) :
    (recorder.take block).2.InOrder channels := by
  by_cases hroom : recorder.written + block.size ≤ Wav.maxSamples
  · rw [take_of_le h hwhole hroom]
    refine ⟨h.channels_eq, h.whole_add hwhole, rfl, ?_, rfl⟩
    have := h.position_eq
    dsimp only
    omega
  · -- There is no room: the block is refused and the recorder stays as it is.
    rw [take_of_lt (by omega)]
    exact h

@[simp]
theorem file_take (recorder : Recorder) (block : Block) :
    (recorder.take block).2.file = recorder.file := by
  unfold take writeBlock
  dsimp only [Library.append, Library.flush, Writer.append, Writer.flush]
  split
  · rfl
  · split <;> rfl

@[simp]
theorem scaler_take (recorder : Recorder) (block : Block) :
    (recorder.take block).2.scaler = recorder.scaler := by
  unfold take writeBlock
  dsimp only
  split <;> rfl

theorem le_maxSamples_of_take {recorder : Recorder} {block : Block}
    (h : (recorder.take block).1 = .ok ()) :
    recorder.written + block.size ≤ Wav.maxSamples := by
  by_cases hlt : Wav.maxSamples < recorder.written + block.size
  · rw [take_of_lt hlt] at h
    cases h
  · omega

end Recorder

namespace Node

def recorded (node : Node) (frames : Nat) : Except Error Unit × Node :=
  match node.recorder with
  | none => (.ok (), node)
  | some recorder =>
    ((recorder.take (node.block frames)).1.mapError .file,
      { node with recorder := some (recorder.take (node.block frames)).2 })

@[simp]
theorem device_recorded (node : Node) (frames : Nat) :
    (node.recorded frames).2.device = node.device := by
  unfold recorded
  split <;> rfl

@[simp]
theorem last_recorded (node : Node) (frames : Nat) :
    (node.recorded frames).2.last = node.last := by
  unfold recorded
  split <;> rfl

@[simp]
theorem range_recorded (node : Node) (frames : Nat) :
    (node.recorded frames).2.range = node.range := by
  unfold recorded
  split <;> rfl

@[simp]
theorem phase_recorded (node : Node) (frames : Nat) :
    (node.recorded frames).2.phase = node.phase := by
  unfold recorded
  split <;> rfl

@[simp]
theorem fills_recorded (node : Node) (frames : Nat) :
    (node.recorded frames).2.fills = node.fills := by
  unfold recorded
  split <;> rfl

@[simp]
theorem buffer_recorded (node : Node) (frames : Nat) :
    (node.recorded frames).2.buffer = node.buffer := by
  unfold recorded
  split <;> rfl

@[simp]
theorem block_recorded (node : Node) (frames count : Nat) :
    (node.recorded frames).2.block count = node.block count := by
  simp [block]

theorem recorder_recorded (node : Node) (frames : Nat) :
    (node.recorded frames).2.recorder
      = node.recorder.map fun recorder => (recorder.take (node.block frames)).2 := by
  unfold recorded
  split
  next h => simp [h]
  next recorder h => simp [h]

end Node

namespace Rack

theorem fst_recordBlock {rack : Rack} {id : Nat} {node : Node} (h : rack.nodes[id]? = some node)
    (frames : Nat) : (rack.recordBlock id frames).1 = (node.recorded frames).1 := by
  unfold recordBlock Node.recorded
  cases hrecorder : node.recorder with
  | none => simp only [h, hrecorder]
  | some recorder =>
    simp only [h, hrecorder]
    rw [Recorder.fst_writeBlock]

theorem nodes_recordBlock {rack : Rack} {id : Nat} {node : Node} (h : rack.nodes[id]? = some node)
    (frames : Nat) (other : Nat) :
    (rack.recordBlock id frames).2.nodes[other]?
      = if id = other then some (node.recorded frames).2 else rack.nodes[other]? := by
  unfold recordBlock Node.recorded
  cases hrecorder : node.recorder with
  | none =>
    simp only [h, hrecorder]
    split
    next hid => rw [← hid, h]
    next => rfl
  | some recorder =>
    simp only [h, hrecorder]
    rw [Recorder.snd_writeBlock, getElem?_update]
    split
    next hid =>
      subst hid
      rw [h]
      rfl
    next => rfl

end Rack
end PatchSynth
