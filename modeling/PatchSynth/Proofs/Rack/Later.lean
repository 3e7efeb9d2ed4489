import PatchSynth.Proofs.Rack.Rejection
import PatchSynth.Proofs.Rack.Release
import PatchSynth.Proofs.Wav.Content

/-!
This module contains what all operations on racks keep: a node stays where it was built and wired as
it was, no block is taken back, and no directory is made or removed. To give up references is one of
these operations, because it only stops recordings.
-/

namespace PatchSynth
namespace Rack

variable {base rack next : Rack} {id : Nat} {node : Node}

theorem Later.trans (h : base.Later rack) (hnext : rack.Later next) : base.Later next := by
  induction hnext with
  | refl => exact h
  | add _ hinputs ih => exact ih.add hinputs
  | output _ request id ih => exact ih.output request id
  | record _ id path scaler ih => exact ih.record id path scaler
  | stop _ id ih => exact ih.stop id

theorem Later.device_eq (h : base.Later next) (hnode : base.nodes[id]? = some node) :
    ∃ now, next.nodes[id]? = some now ∧ now.device = node.device := by
  have hshape : ∀ {rack other : Rack}, other.shape = rack.shape →
      (∃ now, rack.nodes[id]? = some now ∧ now.device = node.device) →
        ∃ now, other.nodes[id]? = some now ∧ now.device = node.device := by
    rintro rack other heq ⟨now, hnow, hdevice⟩
    obtain ⟨twin, htwin, htwinDevice, -⟩ := exists_of_shape heq.symm hnow
    exact ⟨twin, htwin, htwinDevice.trans hdevice⟩
  induction h with
  | refl => exact ⟨node, hnode, rfl⟩
  | @add rack device _ _ ih =>
    obtain ⟨now, hnow, hdevice⟩ := ih
    obtain ⟨hlt, -⟩ := Array.getElem?_eq_some_iff.1 hnow
    exact ⟨now, by rw [getElem?_add_of_lt rack device hlt, hnow], hdevice⟩
  | output _ request root ih =>
    rw [nodes_output]
    exact hshape (shape_refresh _ _ root) ih
  | record _ other path scaler ih => exact hshape (shape_snd_record _ other path scaler) ih
  | stop _ other ih => exact hshape (shape_stop _ other) ih

theorem Later.isStereo (h : base.Later next) (hstereo : base.isStereo id = true) :
    next.isStereo id = true := by
  obtain ⟨node, hnode, hdevice⟩ := exists_of_isStereo hstereo
  obtain ⟨now, hnow, hsame⟩ := h.device_eq hnode
  rw [Rack.isStereo, hnow]
  dsimp only
  rw [hsame, hdevice]

theorem size_le_of_later (h : base.Later next) : base.nodes.size ≤ next.nodes.size := by
  by_contra hlt
  have hnode : base.nodes[next.nodes.size]? = some base.nodes[next.nodes.size] :=
    Array.getElem?_eq_getElem (by omega)
  obtain ⟨now, hnow, -⟩ := h.device_eq hnode
  simp at hnow

theorem later_of_record {path : String} {scaler : Float32}
    (h : rack.record id path scaler = (.ok (), next)) : rack.Later next := by
  have hlater : rack.Later (rack.record id path scaler).2 := Rack.Later.refl.record id path scaler
  rw [h] at hlater
  exact hlater

theorem later_forAll_stop (rack : Rack) (ids : List Nat) :
    rack.Later (forAll (fun id rack => rack.stop id) ids rack).2 :=
  keep_forAll_stop (fun id hlater => hlater.stop id) Later.refl ids

theorem later_release (rack : Rack) (kept released : List Nat) :
    rack.Later (rack.release kept released) :=
  keep_release (fun id hlater => hlater.stop id) Later.refl kept released

theorem Later.last_le {last : Nat} (h : rack.Later next) (hnode : rack.nodes[id]? = some node)
    (hlast : node.last = some last) :
    ∃ now newer, next.nodes[id]? = some now ∧ now.last = some newer ∧ last ≤ newer := by
  have hkeeps : rack.Keeps last id node :=
    ⟨node, last, hnode, rfl, rfl, hlast, Nat.le_refl _, fun _ => rfl⟩
  obtain ⟨now, newer, hnow, -, -, hnewer, hle, -⟩ := hkeeps.later h
  exact ⟨now, newer, hnow, hnewer, hle⟩

theorem Later.directories_eq (h : rack.Later next) :
    next.files.directories = rack.files.directories := by
  induction h with
  | refl => rfl
  | add _ _ ih => exact ih
  | @output current _ request root ih =>
    rw [nodes_output, ← ih]
    apply (steps_refresh _ root current).1.keep
      (P := fun next => next.files.directories = current.files.directories)
    · intro other current next _ hstep hcurrent
      obtain ⟨node, -, -, ⟨-, hfiles⟩ | ⟨result, -, -, hfiles⟩⟩ := hstep.files_cases
      · rw [hfiles, hcurrent]
      · rw [hfiles, ← hcurrent]
        split
        next => rfl
        next => exact Recorder.directories_writeBlock _ _ _
    · rfl
  | @record current _ other path scaler ih =>
    obtain heq | ⟨_, recorder, files, -, hcreate, heq⟩ := current.snd_record_cases other path scaler
    · rw [heq, ih]
    · rw [heq, ← ih]
      exact Recorder.directories_create hcreate
  | @stop current _ other ih =>
    rw [← ih]
    unfold Rack.stop
    split <;> rfl

end Rack
end PatchSynth
