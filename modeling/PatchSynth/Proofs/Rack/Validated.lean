import PatchSynth.Proofs.Rack.Mirror
import PatchSynth.Proofs.Rack.Cause
import PatchSynth.Proofs.Rack.Later

/-!
This module contains the checks of declared ranges. What a node declares is settled when it is
built, and a node gets its first block only after its inputs passed their check. So a node that has
a block, and every node that it reaches, passes the check for ever.
-/

namespace PatchSynth

namespace Rack

variable {request : Request} {base rack next : Rack} {id : Nat} {node : Node} {e : Error}

theorem Raised.exists_demands (h : Raised request rack id e) (hrange : e.IsInputRange)
    (hstandard : ∀ node, rack.nodes[id]? = some node → node.device.isCustom = false) :
    ∃ node, rack.nodes[id]? = some node ∧ rack.checkDemands node.device = .error e := by
  cases h with
  | unwired => obtain ⟨input, inputRange, consumer, accepted, ⟨⟩⟩ := hrange
  | demands hnode herror => exact ⟨_, hnode, herror⟩
  | @fill node feed _ hnode herror =>
    have hcustom : (node.device.map feed).isCustom = false := by
      rw [Device.isCustom_map]
      exact hstandard node hnode
    rw [Device.of_fill_eq_error hcustom herror] at hrange
    obtain ⟨input, inputRange, consumer, accepted, ⟨⟩⟩ := hrange
  | record hnode hfill herror =>
    obtain ⟨recorder, cause, -, -, rfl⟩ := Node.exists_of_recorded_eq_error herror
    obtain ⟨input, inputRange, consumer, accepted, ⟨⟩⟩ := hrange
  | check hnode herror =>
    obtain ⟨value, rfl⟩ := Node.exists_of_check_eq_error herror
    obtain ⟨input, inputRange, consumer, accepted, ⟨⟩⟩ := hrange

def Validated (rack : Rack) : Prop :=
  ∀ (id : Nat) (node : Node), rack.nodes[id]? = some node → node.last ≠ none →
    rack.checkDemands node.device = .ok ()

namespace Validated

theorem empty (files : Files) : Validated { files } := by
  intro id node hnode
  simp at hnode

theorem of_shape (h : rack.Validated) (hshape : next.shape = rack.shape)
    (hlast : ∀ (id : Nat) (node : Node), next.nodes[id]? = some node → node.last ≠ none →
      ∃ old : Node, rack.nodes[id]? = some old ∧ old.last ≠ none) : next.Validated := by
  intro id node hnode hplayed
  obtain ⟨old, hold, hplayed⟩ := hlast id node hnode hplayed
  obtain ⟨found, hfound, hdevice, -⟩ := exists_of_shape hshape hnode
  rw [hold] at hfound
  cases hfound
  rw [checkDemands_of_shape hshape, ← hdevice]
  exact h id old hold hplayed

theorem update_recorder (h : rack.Validated) (other : Nat) (recorder : Option Recorder) :
    (rack.update other fun node => { node with recorder := recorder }).Validated := by
  apply h.of_shape (shape_update_recorder rack other recorder)
  intro id node hnode hplayed
  obtain ⟨old, hold, rfl | ⟨rfl, rfl⟩⟩ := nodes_update_cases hnode
  · exact ⟨node, hold, hplayed⟩
  · exact ⟨old, hold, hplayed⟩

theorem record (h : rack.Validated) (other : Nat) (path : String) (scaler : Float32) :
    (rack.record other path scaler).2.Validated := by
  obtain heq | ⟨_, recorder, files, -, -, heq⟩ := rack.snd_record_cases other path scaler
  · rw [heq]
    exact h
  · rw [heq]
    exact h.update_recorder other (some recorder)

theorem stop (h : rack.Validated) (other : Nat) : (rack.stop other).2.Validated := by
  obtain heq | ⟨files, heq⟩ := rack.snd_stop_cases other
  · rw [heq]
    exact h
  · rw [heq]
    exact h.update_recorder other none

theorem add (h : rack.Validated) (hrack : rack.WellFormed) (device : Device Nat) :
    (rack.add device).2.Validated := by
  intro id node hnode hplayed
  obtain ⟨hlt, hnode⟩ | ⟨-, rfl⟩ := nodes_add_cases hnode
  · have hinputs : ∀ input ∈ node.device.inputs,
        (rack.add device).2.nodes[input]? = rack.nodes[input]? := by
      intro input hmem
      have hinput := hrack.inputs_lt hnode input hmem
      exact getElem?_add_of_lt rack device (by omega)
    rw [checkDemands_congr hinputs]
    exact h id node hnode hplayed
  · exact absurd rfl hplayed

theorem output (h : rack.Validated) (hrack : rack.WellFormed) (request : Request) (root : Nat) :
    (rack.output request root).2.Validated := by
  rw [nodes_output_clamped]
  obtain ⟨filled, hfilled⟩ := (steps_refresh request.clamped root rack).1.hasFilled
  intro id node hnode hplayed
  rw [checkDemands_of_shape hfilled.shape_eq]
  obtain ⟨before, hbefore, hdevice, -⟩ := exists_of_shape hfilled.shape_eq hnode
  rw [← hdevice]
  by_cases hmem : id ∈ filled
  · obtain ⟨found, after, hfound, hafter, hfilledAs⟩ := hfilled.of_mem hmem
    rw [hbefore] at hfound
    cases hfound
    exact (earned_refresh hrack request.clamped root id before hbefore hfilledAs.stale
      ⟨after, hafter, fresh_of_filledAs hfilledAs⟩).1
  · obtain ⟨fills, hkept⟩ := hfilled.kept hmem hbefore
    rw [hnode] at hkept
    cases hkept
    exact h id before hbefore hplayed

theorem later (h : base.Validated) (hbase : base.WellFormed) (hlater : base.Later rack) :
    rack.Validated := by
  induction hlater with
  | refl => exact h
  | @add rack device hrack _ ih => exact ih.add (hrack.wellFormed hbase) device
  | output hrack request root ih => exact ih.output (hrack.wellFormed hbase) request root
  | record _ other path scaler ih => exact ih.record other path scaler
  | stop _ other ih => exact ih.stop other

end Validated

theorem Reachable.validated (h : rack.Reachable) : rack.Validated := by
  obtain ⟨files, h⟩ := h
  exact (Validated.empty files).later (WellFormed.empty files) h

structure Accepted (rack : Rack) (id : Nat) : Prop where
  reachable : rack.Reachable
  played : ∃ node : Node, rack.nodes[id]? = some node ∧ node.last ≠ none
  standard : ∀ {other : Nat} {node : Node}, other ≤ id → rack.nodes[other]? = some node →
    node.device.isCustom = false

namespace Accepted

theorem of_output (h : rack.Reachable) (hstandard : rack.Standard) {block : Block}
    (hok : (rack.output request id).1 = .ok block) : (rack.output request id).2.Accepted id := by
  obtain ⟨files, hreachable⟩ := h
  have hnext : (rack.output request id).2.Reachable := ⟨files, hreachable.output request id⟩
  refine ⟨hnext, ?_, fun _ hnode => hstandard.of_shape ?_ _ _ hnode⟩
  · obtain ⟨node, hnode, hfresh⟩ :=
      (steps_refresh request.clamped id rack).2 (refresh_of_output hok)
    rw [← nodes_output_clamped] at hnode
    obtain ⟨last, hlast, -⟩ := Node.isStale_eq_false_iff.1 hfresh
    exact ⟨node, hnode, by simp [hlast]⟩
  · rw [nodes_output_clamped]
    exact shape_refresh request.clamped rack id

theorem later (h : rack.Accepted id) (hlater : rack.Later next) : next.Accepted id := by
  obtain ⟨files, hreachable⟩ := h.reachable
  obtain ⟨node, hnode, hplayed⟩ := h.played
  refine ⟨⟨files, hreachable.trans hlater⟩, ?_, ?_⟩
  · obtain ⟨last, hlast⟩ := Option.ne_none_iff_exists'.1 hplayed
    obtain ⟨now, newer, hnow, hnewer, -⟩ := hlater.last_le hnode hlast
    exact ⟨now, hnow, by simp [hnewer]⟩
  · -- A node that stands before this one is one of those that stood before.
    intro other now hle hnow
    obtain ⟨hlt, -⟩ := Array.getElem?_eq_some_iff.1 hnode
    have hold : rack.nodes[other]? = some rack.nodes[other] :=
      Array.getElem?_eq_getElem (by omega)
    obtain ⟨found, hfound, hdevice⟩ := hlater.device_eq hold
    rw [hnow] at hfound
    cases hfound
    rw [hdevice]
    exact h.standard hle hold

theorem not_isInputRange (h : rack.Accepted id) (herror : (rack.output request id).1 = .error e) :
    ¬ e.IsInputRange := by
  intro hrange
  have hrack := h.reachable.wellFormed
  obtain ⟨other, hreaches, hraised⟩ := exists_raised_of_output herror
  obtain ⟨found, hfound, hdemands⟩ := hraised.exists_demands hrange fun node =>
    h.standard (hrack.le_of_reaches hreaches)
  obtain ⟨node, hnode, hplayed⟩ := h.played
  obtain ⟨last, hlast⟩ := Option.ne_none_iff_exists'.1 hplayed
  obtain ⟨read, newer, hread, hnewer, -⟩ := hrack.last_of_reaches hreaches hnode hlast
  rw [hfound] at hread
  cases hread
  have hok := h.reachable.validated other found hfound (by simp [hnewer])
  rw [hok] at hdemands
  cases hdemands

end Accepted

end Rack
end PatchSynth
