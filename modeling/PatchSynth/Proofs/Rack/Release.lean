import PatchSynth.Proofs.Rack.Tape
import PatchSynth.Rack.Release

/-!
This module contains what it means to give up references: nothing but that recordings are stopped.
If the files of the recordings are complete, nobody can tell from them, because to close one writes
the sizes once more that stand in its header already.
-/

namespace PatchSynth
namespace Rack

section Keep

variable {P : Rack → Prop} {rack : Rack}

theorem keep_foldl {give : Array Nat × Rack → Nat → Array Nat × Rack}
    (hgive : ∀ counts {rack : Rack} id, P rack → P (give (counts, rack) id).2) (h : P rack)
    (counts : Array Nat) (ids : List Nat) : P (ids.foldl give (counts, rack)).2 := by
  induction ids generalizing rack counts with
  | nil => exact h
  | cons id rest ih =>
    rw [List.foldl_cons]
    exact ih (hgive counts id h) _

theorem keep_releaseWithin (hstop : ∀ {rack : Rack} (id : Nat), P rack → P (rack.stop id).2)
    (depth : Nat) (counts : Array Nat) {rack : Rack} (id : Nat) (h : P rack) :
    P (releaseWithin depth (counts, rack) id).2 := by
  induction depth generalizing rack counts id with
  | zero => exact h
  | succ depth ih =>
    rw [releaseWithin]
    dsimp only
    split
    next node _ _ =>
      have hinputs := keep_foldl (fun counts _ id hrack => ih counts id hrack) h
        (counts.modify id (· - 1)) node.device.inputs
      exact hstop id hinputs
    next => exact h

theorem keep_release (hstop : ∀ {rack : Rack} (id : Nat), P rack → P (rack.stop id).2)
    (h : P rack) (kept released : List Nat) : P (rack.release kept released) :=
  keep_foldl (keep_releaseWithin hstop _) h _ released

theorem keep_forAll_stop (hstop : ∀ {rack : Rack} (id : Nat), P rack → P (rack.stop id).2)
    (h : P rack) (ids : List Nat) : P (forAll (fun id rack => rack.stop id) ids rack).2 := by
  induction ids generalizing rack with
  | nil => exact h
  | cons id rest ih =>
    have hfirst := hstop id h
    unfold forAll
    split
    next hresult =>
      rw [hresult] at hfirst
      exact hfirst
    next hresult =>
      rw [hresult] at hfirst
      exact ih hfirst

end Keep

theorem release_of_unrecorded {rack : Rack}
    (h : ∀ (id : Nat) (node : Node), rack.nodes[id]? = some node → node.recorder = none)
    (kept released : List Nat) : rack.release kept released = rack := by
  apply keep_release (P := fun next => next = rack) _ rfl
  rintro next id rfl
  have hidle : next.nodes[id]?.bind (·.recorder) = none := by
    cases hnode : next.nodes[id]? with
    | none => rfl
    | some node => exact h id node hnode
  simp only [stop, hidle]

structure Taped (rack : Rack) : Prop where
  wellFormed : rack.WellFormed
  holds : ∀ {id : Nat} {node : Node} {recorder : Recorder}, rack.nodes[id]? = some node →
    node.recorder = some recorder → ∃ channels data, recorder.Holds rack.files channels data

structure Settles (rack next : Rack) : Prop where
  taped : next.Taped
  lookup_eq : ∀ way, next.files.contents.lookup way = rack.files.contents.lookup way

variable {rack next last : Rack}

theorem Taped.settles_refl (h : rack.Taped) : rack.Settles rack :=
  ⟨h, fun _ => rfl⟩

theorem Settles.trans (h : rack.Settles next) (hlast : next.Settles last) : rack.Settles last := by
  refine ⟨hlast.taped, ?_⟩
  intro way
  rw [hlast.lookup_eq, h.lookup_eq]

theorem Taped.lookup_stop (h : rack.Taped) (id : Nat) (way : Way) :
    (rack.stop id).2.files.contents.lookup way = rack.files.contents.lookup way := by
  unfold stop
  split
  next => rfl
  next recorder hrecorder =>
    rw [Option.bind_eq_some_iff] at hrecorder
    obtain ⟨node, hnode, hrecorder⟩ := hrecorder
    obtain ⟨channels, data, hholds⟩ := h.holds hnode hrecorder
    exact hholds.lookup_finish ((h.wellFormed.sound hnode).inOrder recorder hrecorder)
      node.device.channels_le_two way

theorem Taped.settles_stop (h : rack.Taped) (id : Nat) : rack.Settles (rack.stop id).2 := by
  refine ⟨⟨h.wellFormed.stop id, ?_⟩, h.lookup_stop id⟩
  intro other node recorder hnode hrecorder
  obtain ⟨old, hold, hrecorder⟩ := recorder_of_stop hnode hrecorder
  obtain ⟨channels, data, hholds⟩ := h.holds hold hrecorder
  exact ⟨channels, data, hholds.of_lookup_eq (h.lookup_stop id recorder.file)⟩

theorem Taped.settles_release (h : rack.Taped) (kept released : List Nat) :
    rack.Settles (rack.release kept released) :=
  keep_release (fun id hrack => hrack.trans (hrack.taped.settles_stop id)) h.settles_refl kept
    released

end Rack
end PatchSynth
