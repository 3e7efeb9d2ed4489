import PatchSynth.Proofs.Player.Run
import PatchSynth.Proofs.Signal.Rack

/-!
This module contains runs of a player as pieces of signals: whether a run succeeds, what it plays
and what is recorded of it depends on how many frames are played in total, and not on the blocks.
-/

namespace PatchSynth

namespace Rack

variable {controls : Controls} {rack other : Rack} {offset id : Nat}

theorem Clean.of_none {frames : Nat} (h : rack.nodes[id]? = none) :
    rack.Clean controls offset frames id := by
  refine ⟨?_, ?_, ?_⟩ <;> intro node hnode <;> rw [h] at hnode <;> cases hnode

theorem Clean.of_contains {frames : Nat} {node : Node} (hnode : rack.nodes[id]? = some node)
    (hdemands : rack.checkDemands node.device = .ok ()) (hordered : node.device.isOrdered = true)
    (hcontains : ∀ time, node.range.contains (rack.signal controls id time) = true) :
    rack.Clean controls offset frames id := by
  apply Clean.of_node hnode hdemands (Or.inr hordered)
  intro sample hmem
  obtain ⟨time, -, -, rfl⟩ := Signal.mem_window.1 hmem
  exact hcontains time

theorem Clean.of_shape {frames : Nat} (h : rack.Clean controls offset frames id)
    (hshape : other.shape = rack.shape) : other.Clean controls offset frames id := by
  refine ⟨?_, ?_, ?_⟩
  · intro node hnode
    obtain ⟨twin, htwin, hdevice, -⟩ := exists_of_shape hshape hnode
    rw [checkDemands_of_shape hshape, ← hdevice]
    exact h.demands twin htwin
  · intro node hnode
    obtain ⟨twin, htwin, hdevice, -⟩ := exists_of_shape hshape hnode
    rw [← hdevice]
    exact h.ordered twin htwin
  · intro node hnode
    obtain ⟨twin, htwin, hdevice, hrange⟩ := exists_of_shape hshape hnode
    rw [signal_of_shape hshape, ← hdevice, ← hrange]
    exact h.contains twin htwin

theorem clean_of_shape {frames : Nat} (hshape : other.shape = rack.shape) :
    other.Clean controls offset frames id ↔ rack.Clean controls offset frames id :=
  ⟨fun h => h.of_shape hshape.symm, fun h => h.of_shape hshape⟩

theorem clean_add_iff {first second : Nat} :
    rack.Clean controls offset (first + second) id ↔
      rack.Clean controls offset first id ∧ rack.Clean controls (offset + first) second id := by
  have hwindow : ∀ channels, (rack.signal controls id).window (offset * channels)
      ((first + second) * channels)
      = (rack.signal controls id).window (offset * channels) (first * channels)
        ++ (rack.signal controls id).window ((offset + first) * channels) (second * channels) := by
    intro channels
    rw [Nat.add_mul, Nat.add_mul, Signal.window_append]
  constructor
  · intro h
    refine ⟨⟨h.demands, ?_, ?_⟩, ⟨h.demands, ?_, ?_⟩⟩
    · intro node hnode
      obtain hzero | hordered := h.ordered node hnode
      · exact Or.inl (by omega)
      · exact Or.inr hordered
    · intro node hnode sample hmem
      apply h.contains node hnode
      rw [hwindow]
      exact Array.mem_append_left _ hmem
    · intro node hnode
      obtain hzero | hordered := h.ordered node hnode
      · exact Or.inl (by omega)
      · exact Or.inr hordered
    · intro node hnode sample hmem
      apply h.contains node hnode
      rw [hwindow]
      exact Array.mem_append_right _ hmem
  · rintro ⟨hfirst, hsecond⟩
    refine ⟨hfirst.demands, ?_, ?_⟩
    · intro node hnode
      obtain hzero | hordered := hfirst.ordered node hnode
      · obtain hzero' | hordered := hsecond.ordered node hnode
        · exact Or.inl (by omega)
        · exact Or.inr hordered
      · exact Or.inr hordered
    · intro node hnode sample hmem
      rw [hwindow, Array.mem_append] at hmem
      obtain hmem | hmem := hmem
      · exact hfirst.contains node hnode sample hmem
      · exact hsecond.contains node hnode sample hmem

end Rack

namespace Player

def callsOf (controls : Controls) (counts : List Nat) : List (Controls × Nat) :=
  counts.map fun frames => (controls, frames)

variable {controls : Controls} {player last : Player} {patch played : Patch} {counts : List Nat}

theorem fst_advance_cons (controls : Controls) (frames : Nat) (rest : List (Controls × Nat)) :
    (player.advance patch ((controls, frames) :: rest)).1 = .ok () ↔
      (patch.rack.refresh (player.request controls frames) player.output).1 = .ok () ∧
        ((player.render controls frames patch).2.1.advance
          (player.render controls frames patch).2.2 rest).1 = .ok () := by
  rw [advance]
  have hfst := fst_render player controls frames patch
  cases hrender : player.render controls frames patch with
  | mk result next =>
    rw [hrender] at hfst
    cases hrefresh : (patch.rack.refresh (player.request controls frames) player.output).1 with
    | error e =>
      rw [hrefresh] at hfst
      have hresult : result = .error e := hfst
      subst hresult
      simp
    | ok _ =>
      rw [hrefresh] at hfst
      have hresult := hfst
      simp only [Except.map] at hresult
      subst hresult
      simp

section

variable {offset frames : Nat}

theorem refresh_request_ok_iff
    (h : patch.rack.PlayedTo controls player.output offset player.clock)
    (hroot : player.output < patch.rack.nodes.size) (hframes : frames ≤ maxFrames)
    (hroom : patch.rack.HasRoom frames) :
    (patch.rack.refresh (player.request controls frames) player.output).1 = .ok () ↔
      ∀ id, patch.rack.Reaches player.output id → patch.rack.Clean controls offset frames id := by
  rw [request_of_le player controls hframes]
  apply Rack.PlayedTo.refresh_ok_iff
  · exact h
  · exact hframes
  · exact hroom
  · exact hroot

theorem playedTo_render (h : patch.rack.PlayedTo controls player.output offset player.clock)
    (hframes : frames ≤ maxFrames) (hroom : patch.rack.HasRoom frames)
    (hok : (patch.rack.refresh (player.request controls frames) player.output).1 = .ok ()) :
    (player.render controls frames patch).2.2.rack.PlayedTo controls
      (player.render controls frames patch).2.1.output (offset + frames)
      (player.render controls frames patch).2.1.clock := by
  rw [rack_render]
  rw [request_of_le player controls hframes] at hok ⊢
  have hplayed : patch.rack.PlayedTo
      ({ timestamp := player.clock, frames, controls } : Request).controls player.output offset
      ({ timestamp := player.clock, frames, controls } : Request).timestamp := h
  exact hplayed.refresh hframes hroom hok

theorem hasRoom_render (h : patch.rack.WellFormed) {later : Nat} (hframes : frames ≤ maxFrames)
    (hroom : patch.rack.HasRoom (frames + later))
    (hok : (patch.rack.refresh (player.request controls frames) player.output).1 = .ok ()) :
    (player.render controls frames patch).2.2.rack.HasRoom later := by
  rw [rack_render]
  rw [request_of_le player controls hframes] at hok ⊢
  exact h.hasRoom_refresh hframes hroom hok

theorem continues_render (h : patch.rack.PlayedTo controls player.output offset player.clock)
    (hframes : frames ≤ maxFrames) (hroom : patch.rack.HasRoom frames)
    (hok : (patch.rack.refresh (player.request controls frames) player.output).1 = .ok ())
    {id : Nat} (hreaches : patch.rack.Reaches player.output id) :
    (patch.rack.refresh (player.request controls frames) player.output).2.blockOf id frames
      = (patch.rack.signal controls id).window (offset * patch.rack.channelsOf id)
          (frames * patch.rack.channelsOf id) := by
  rw [request_of_le player controls hframes] at hok ⊢
  have hplayed : patch.rack.PlayedTo
      ({ timestamp := player.clock, frames, controls } : Request).controls player.output offset
      ({ timestamp := player.clock, frames, controls } : Request).timestamp := h
  obtain ⟨value, hvalue, -, hcontinues⟩ :=
    hplayed.continues_of_refresh hframes hroom hok hreaches
  rw [Rack.blockOf, hvalue]
  exact hcontinues.block

theorem callsOf_cons (controls : Controls) (frames : Nat) (rest : List Nat) :
    callsOf controls (frames :: rest) = (controls, frames) :: callsOf controls rest := rfl

theorem advance_ok_iff (h : patch.rack.PlayedTo controls player.output offset player.clock)
    (hroot : player.output < patch.rack.nodes.size)
    (hcounts : ∀ frames ∈ counts, frames ≤ maxFrames) (hroom : patch.rack.HasRoom counts.sum) :
    (player.advance patch (callsOf controls counts)).1 = .ok () ↔
      counts = [] ∨ ∀ id, patch.rack.Reaches player.output id →
        patch.rack.Clean controls offset counts.sum id := by
  induction counts generalizing player patch offset with
  | nil => simp [callsOf, advance]
  | cons frames rest ih =>
    rw [List.sum_cons] at *
    have hframes := hcounts frames (List.mem_cons_self ..)
    have hroomFirst := hroom.mono (Nat.le_add_right frames rest.sum)
    have hfirst := refresh_request_ok_iff h hroot hframes hroomFirst
    have hshape := shape_render player controls frames patch
    -- Whether the rest of the run succeeds depends on the patch as it is before the first block.
    have hrest : (∀ id, patch.rack.Reaches player.output id →
          patch.rack.Clean controls offset frames id) →
        (((player.render controls frames patch).2.1.advance
          (player.render controls frames patch).2.2 (callsOf controls rest)).1 = .ok () ↔
            rest = [] ∨ ∀ id, patch.rack.Reaches player.output id →
              patch.rack.Clean controls (offset + frames) rest.sum id) := by
      intro hclean
      have hok := hfirst.2 hclean
      have hiff := ih (playedTo_render h hframes hroomFirst hok)
        (by rw [Rack.size_nodes_of_shape hshape]; exact hroot)
        (fun frames hmem => hcounts frames (List.mem_cons_of_mem _ hmem))
        (hasRoom_render h.wellFormed hframes hroom hok)
      simp only [Rack.reaches_of_shape hshape, Rack.clean_of_shape hshape] at hiff
      exact hiff
    rw [callsOf_cons, fst_advance_cons, hfirst]
    constructor
    · rintro ⟨hclean, hadvance⟩
      rw [hrest hclean] at hadvance
      apply Or.inr
      intro id hreaches
      obtain rfl | hsecond := hadvance
      · simpa using hclean id hreaches
      · exact Rack.clean_add_iff.2 ⟨hclean id hreaches, hsecond id hreaches⟩
    · rintro (hnil | hall)
      · cases hnil
      · have hclean : ∀ id, patch.rack.Reaches player.output id →
            patch.rack.Clean controls offset frames id :=
          fun id hreaches => (Rack.clean_add_iff.1 (hall id hreaches)).1
        refine ⟨hclean, (hrest hclean).2 (Or.inr ?_)⟩
        intro id hreaches
        exact (Rack.clean_add_iff.1 (hall id hreaches)).2

theorem blocksOf_eq_window (h : patch.rack.PlayedTo controls player.output offset player.clock)
    (hcounts : ∀ frames ∈ counts, frames ≤ maxFrames) (hroom : patch.rack.HasRoom counts.sum)
    (hok : (player.advance patch (callsOf controls counts)).1 = .ok ()) {id : Nat}
    (hreaches : patch.rack.Reaches player.output id) :
    (player.blocksOf id patch (callsOf controls counts)).flatMap Array.toList
      = ((patch.rack.signal controls id).window (offset * patch.rack.channelsOf id)
          (counts.sum * patch.rack.channelsOf id)).toList := by
  induction counts generalizing player patch offset with
  | nil => simp [callsOf, blocksOf]
  | cons frames rest ih =>
    rw [List.sum_cons] at *
    rw [callsOf_cons, fst_advance_cons] at hok
    obtain ⟨hfirst, hrest⟩ := hok
    have hframes := hcounts frames (List.mem_cons_self ..)
    have hroomFirst := hroom.mono (Nat.le_add_right frames rest.sum)
    have hshape := shape_render player controls frames patch
    have hblock := continues_render h hframes hroomFirst hfirst hreaches
    have hlater := ih (playedTo_render h hframes hroomFirst hfirst)
      (fun frames hmem => hcounts frames (List.mem_cons_of_mem _ hmem))
      (hasRoom_render h.wellFormed hframes hroom hfirst) hrest
      (by rw [Rack.reaches_of_shape hshape]; exact hreaches)
    rw [Rack.channelsOf_of_shape hshape, Rack.signal_of_shape hshape] at hlater
    rw [callsOf_cons, blocksOf_cons, List.flatMap_cons, hlater, Nat.min_eq_left hframes, hblock,
      ← Array.toList_append, Nat.add_mul, Nat.add_mul, Signal.window_append]

end

end Player
end PatchSynth
