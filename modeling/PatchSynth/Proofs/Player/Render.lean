import PatchSynth.Player
import PatchSynth.Proofs.Rack.Value

/-!
This module contains lemmas about players: a block that is played is a pull of the output node, with
the clock of the player as its timestamp.
-/

namespace PatchSynth
namespace Player

def renders (player : Player) :
    List (Controls × Nat) → Patch → List (Except Error Block) × Player × Patch
  | [], patch => ([], player, patch)
  | (controls, frames) :: rest, patch =>
    let (result, player, patch) := player.render controls frames patch
    let (results, player, patch) := player.renders rest patch
    (result :: results, player, patch)

def framesOf (calls : List (Controls × Nat)) : Nat :=
  (calls.map fun call => min call.2 maxFrames).sum

def request (player : Player) (controls : Controls) (frames : Nat) : Request :=
  { timestamp := player.clock, frames := min frames maxFrames, controls }

theorem request_of_le (player : Player) (controls : Controls) {frames : Nat}
    (h : frames ≤ maxFrames) :
    player.request controls frames = { timestamp := player.clock, frames, controls } := by
  rw [request, Nat.min_eq_left h]

theorem rack_render (player : Player) (controls : Controls) (frames : Nat) (patch : Patch) :
    (player.render controls frames patch).2.2.rack
      = (patch.rack.refresh (player.request controls frames) player.output).2 := by
  rw [request, ← Rack.nodes_output { timestamp := player.clock, frames, controls }]
  rfl

theorem fst_render (player : Player) (controls : Controls) (frames : Nat) (patch : Patch) :
    (player.render controls frames patch).1 =
      (patch.rack.refresh (player.request controls frames) player.output).1.map fun _ =>
        (patch.rack.refresh (player.request controls frames) player.output).2.blockOf player.output
          (min frames maxFrames) := by
  rw [request, ← Rack.fst_output { timestamp := player.clock, frames, controls }]
  rfl

theorem snd_render (player : Player) (controls : Controls) (frames : Nat) (patch : Patch) :
    (player.render controls frames patch).2.1 = { player with clock := player.clock + 1 } := rfl

theorem refresh_of_render {player : Player} {controls : Controls} {frames : Nat} {patch : Patch}
    {block : Block} (h : (player.render controls frames patch).1 = .ok block) :
    (patch.rack.refresh (player.request controls frames) player.output).1 = .ok () := by
  rw [fst_render] at h
  cases hrefresh : (patch.rack.refresh (player.request controls frames) player.output).1 with
  | error e => simp [hrefresh, Except.map] at h
  | ok _ => rfl

theorem fst_new_eq_ok_iff {patch : Patch} {player : Player} :
    (Player.new patch).1 = .ok player ↔
      ∃ output, patch.table.get? outputName = some output ∧ patch.rack.isStereo output = true ∧
        player = { output } := by
  unfold Player.new
  cases patch.table.get? outputName with
  | none => simp
  | some output =>
    cases hstereo : patch.rack.isStereo output with
    | false => simp [hstereo]
    | true =>
      simp only [hstereo, if_true, Except.ok.injEq, Option.some.injEq]
      constructor
      · rintro rfl
        exact ⟨output, rfl, hstereo, rfl⟩
      · rintro ⟨_, rfl, -, rfl⟩
        rfl

@[simp]
theorem rack_new (patch : Patch) : (Player.new patch).2.rack = patch.rack := by
  unfold Player.new
  split
  · rfl
  · split <;> rfl

theorem table_new (patch : Patch) : (Player.new patch).2.table = patch.table := by
  unfold Player.new
  split
  · rfl
  · split <;> rfl

end Player
end PatchSynth
