import PatchSynth.Proofs.Rack.Raise
import PatchSynth.Proofs.Rack.Release

/-!
This module contains the file errors of a rack of standard devices. The only one that a pull can end
with is that of a recording that has no room left, and to stop a recording never fails, because
recorders are given whole frames only.
-/

namespace PatchSynth

def Error.IsFull (e : Error) : Prop :=
  ∀ cause, e = .file cause → ∃ path, cause = .sizeLimit path

theorem Error.isFull_of_ne {e : Error} (h : ∀ cause, e ≠ .file cause) : e.IsFull :=
  fun cause hcause => absurd hcause (h cause)

namespace Recorder

variable {recorder : Recorder} {channels : Nat}

theorem InOrder.cause_of_take (h : recorder.InOrder channels) {block : Block}
    (hwhole : block.size % channels = 0) {cause : FileError}
    (herror : (recorder.take block).1 = .error cause) : cause = .sizeLimit recorder.path := by
  by_cases hroom : recorder.written + block.size ≤ Wav.maxSamples
  · rw [take_of_le h hwhole hroom] at herror
    cases herror
  · rw [take_of_lt (by omega)] at herror
    cases herror
    rfl

theorem InOrder.fst_finish (h : recorder.InOrder channels) (files : Files) :
    (recorder.finish files).1 = .ok () := by
  have hwhole : recorder.writer.isWhole = true := by
    rw [Wav.Writer.isWhole, h.channels_eq, h.count_eq, h.whole]
    rfl
  have hfinish : (recorder.finish files).1
      = if recorder.writer.isWhole then .ok () else .error .unfinishedFrame := rfl
  rw [hfinish, if_pos hwhole]

end Recorder

namespace Rack

variable {request : Request} {rack : Rack} {id : Nat} {e : Error}

def Standard (rack : Rack) : Prop :=
  ∀ (id : Nat) (node : Node), rack.nodes[id]? = some node → node.device.isCustom = false

theorem Standard.of_wellTyped (h : rack.WellTyped) : rack.Standard :=
  fun id node hnode => (h id node hnode).1

theorem Standard.of_shape {next : Rack} (h : rack.Standard) (hshape : next.shape = rack.shape) :
    next.Standard := by
  intro id node hnode
  obtain ⟨old, hold, hdevice, -⟩ := exists_of_shape hshape hnode
  rw [← hdevice]
  exact h id old hold

theorem WellFormed.isFull_of_raised (h : rack.WellFormed) (hstandard : rack.Standard)
    (hframes : request.frames ≤ maxFrames) (hraised : Raised request rack id e) : e.IsFull := by
  cases hraised with
  | unwired =>
    apply Error.isFull_of_ne
    rintro cause ⟨⟩
  | demands hnode herror =>
    obtain ⟨input, inputRange, consumer, accepted, rfl⟩ := isInputRange_of_checkDemands herror
    apply Error.isFull_of_ne
    rintro cause ⟨⟩
  | @fill node feed _ hnode herror =>
    have hcustom : (node.device.map feed).isCustom = false := by
      rw [Device.isCustom_map]
      exact hstandard id node hnode
    rw [Device.of_fill_eq_error hcustom herror]
    apply Error.isFull_of_ne
    rintro cause ⟨⟩
  | record hnode hfill herror =>
    have hstored := Node.sound_store (h.sound hnode).touch hframes hfill
    obtain ⟨recorder, cause, hrecorder, htake, rfl⟩ := Node.exists_of_recorded_eq_error herror
    rintro found ⟨⟩
    exact ⟨_, (hstored.inOrder recorder hrecorder).cause_of_take
      (Node.whole_block hstored hframes) htake⟩
  | check hnode herror =>
    obtain ⟨value, rfl⟩ := Node.exists_of_check_eq_error herror
    apply Error.isFull_of_ne
    rintro cause ⟨⟩

theorem WellFormed.isFull_of_output (h : rack.WellFormed) (hstandard : rack.Standard)
    {root : Nat} (herror : (rack.output request root).1 = .error e) : e.IsFull := by
  obtain ⟨other, -, hraised⟩ := exists_raised_of_output herror
  exact h.isFull_of_raised hstandard (Nat.min_le_right _ _) hraised

theorem WellFormed.fst_stop (h : rack.WellFormed) (id : Nat) : (rack.stop id).1 = .ok () := by
  unfold Rack.stop
  split
  next => rfl
  next recorder hrecorder =>
    rw [Option.bind_eq_some_iff] at hrecorder
    obtain ⟨node, hnode, hrecorder⟩ := hrecorder
    dsimp only
    rw [((h.sound hnode).inOrder recorder hrecorder).fst_finish]
    rfl

theorem WellFormed.fst_forAll_stop (h : rack.WellFormed) (ids : List Nat) :
    (forAll (fun id rack => rack.stop id) ids rack).1 = .ok () := by
  induction ids generalizing rack with
  | nil => rfl
  | cons id rest ih =>
    have hstop := h.fst_stop id
    have hnext := h.stop id
    unfold forAll
    split
    next hresult =>
      rw [hresult] at hstop
      cases hstop
    next hresult =>
      rw [hresult] at hnext
      exact ih hnext

end Rack
end PatchSynth
