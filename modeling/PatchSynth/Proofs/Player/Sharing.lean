import PatchSynth.Proofs.Player.Render
import PatchSynth.Proofs.Rack.Unfold

/-!
This module contains that nobody can hear whether nodes are shared: a patch and its unfolding,
played with the same calls, give the same blocks up to the same failure.
-/

namespace PatchSynth

def untilFailure {α : Type} : List (Except Error α) → List (Except Error α)
  | [] => []
  | .ok value :: rest => .ok value :: untilFailure rest
  | .error e :: _ => [.error e]

theorem untilFailure_eq_map_ok_iff {results : List (Except Error Block)} {blocks : List Block} :
    untilFailure results = blocks.map .ok ↔ results = blocks.map .ok := by
  induction results generalizing blocks with
  | nil => rfl
  | cons result rest ih =>
    cases result with
    | error e => cases blocks <;> simp [untilFailure]
    | ok block =>
      cases blocks with
      | nil => simp [untilFailure]
      | cons first more => simp [untilFailure, ih]

theorem exists_map_ok_iff {results : List (Except Error Block)} :
    (∃ blocks : List Block, untilFailure results = blocks.map .ok)
      ↔ ∃ blocks : List Block, results = blocks.map .ok :=
  exists_congr fun _ => untilFailure_eq_map_ok_iff

theorem not_exists_map_ok (blocks : List Block) (e : Error) (rest : List (Except Error Block)) :
    ¬ ∃ others : List Block, blocks.map .ok ++ .error e :: rest = others.map .ok := by
  rintro ⟨others, hothers⟩
  have hmem : Except.error e ∈ others.map Except.ok := by
    rw [← hothers]
    simp
  simp at hmem

namespace Player

section

variable {origin : Nat → Nat} {player copy : Player} {patch unfolded : Patch}

theorem render_mirror (hmirrors : Rack.Mirrors origin copy.output unfolded.rack patch.rack)
    (houtput : origin copy.output = player.output) (hclock : copy.clock = player.clock)
    (hcopy : unfolded.rack.WellFormed) (hrack : patch.rack.WellFormed) (controls : Controls)
    {frames : Nat} (hroom : patch.rack.HasRoom (min frames maxFrames)) :
    (player.render controls frames patch).1 = (copy.render controls frames unfolded).1 ∧
      ∀ block, (player.render controls frames patch).1 = .ok block →
        Rack.Mirrors origin copy.output (copy.render controls frames unfolded).2.2.rack
          (player.render controls frames patch).2.2.rack := by
  have hrequest : copy.request controls frames = player.request controls frames := by
    rw [request, request, hclock]
  have hframes : (player.request controls frames).frames ≤ maxFrames := Nat.min_le_right _ _
  rw [fst_render, fst_render, rack_render, rack_render, hrequest, ← houtput]
  have hpulled := hmirrors.pulled_mirror hcopy hrack hframes hroom copy.output
    (Rack.Reaches.refl _ _)
  have hsame := Rack.Mirrors.sameResult_map hpulled
  rw [← Rack.refresh_eq_pulled, ← Rack.refresh_eq_pulled] at hsame
  cases hok : (patch.rack.refresh (player.request controls frames) (origin copy.output)).1 with
  | error e =>
    rw [hok] at hsame
    rw [hsame]
    refine ⟨rfl, ?_⟩
    intro block h
    cases h
  | ok _ =>
    rw [hok] at hsame
    have hnext := hmirrors.refresh hcopy hrack hframes hroom hsame hok
    refine ⟨?_, fun _ _ => hnext⟩
    obtain ⟨node, twin, hnode, htwin, htwins, -⟩ := hnext.state (Rack.Reaches.refl _ _)
    rw [hsame]
    simp only [Except.map, Rack.blockOf, hnode, htwin, htwins.block_eq]

theorem renders_mirror (calls : List (Controls × Nat))
    (hmirrors : Rack.Mirrors origin copy.output unfolded.rack patch.rack)
    (houtput : origin copy.output = player.output) (hclock : copy.clock = player.clock)
    (hcopy : unfolded.rack.WellFormed) (hrack : patch.rack.WellFormed)
    (hroom : patch.rack.HasRoom (framesOf calls)) :
    untilFailure (player.renders calls patch).1 = untilFailure (copy.renders calls unfolded).1 := by
  induction calls generalizing player copy patch unfolded with
  | nil => rfl
  | cons call rest ih =>
    obtain ⟨controls, frames⟩ := call
    have hfits : patch.rack.HasRoom (min frames maxFrames + framesOf rest) := hroom
    obtain ⟨hfirst, hnext⟩ := render_mirror hmirrors houtput hclock hcopy hrack controls
      (hfits.mono (Nat.le_add_right _ _))
    -- The patches go on alike only after a success, and nothing is compared after a failure.
    simp only [renders]
    cases hresult : (player.render controls frames patch).1 with
    | error e =>
      rw [hresult] at hfirst
      rw [← hfirst]
      rfl
    | ok block =>
      have hok := refresh_of_render hresult
      have hframes : (player.request controls frames).frames ≤ maxFrames := Nat.min_le_right _ _
      rw [← hfirst, hresult]
      simp only [untilFailure, List.cons.injEq, true_and]
      rw [snd_render, snd_render]
      apply ih
      · exact hnext block hresult
      · exact houtput
      · simp only [hclock]
      · rw [rack_render]
        exact hcopy.refresh (Nat.min_le_right _ _) _
      · rw [rack_render]
        exact hrack.refresh hframes _
      · rw [rack_render]
        exact hrack.hasRoom_refresh hframes hfits hok

end

/--
Sharing cannot be heard. A patch that was never played and its unfolding give the same blocks, call
by call, up to and including the first failure. What the patch is recorded to has to have room.
-/
theorem renders_unfold {patch : Patch} {player : Player} (hrack : patch.rack.Reachable)
    (hunplayed : patch.rack.Unplayed) (hplayer : (Player.new patch).1 = .ok player)
    (calls : List (Controls × Nat)) (hroom : patch.rack.HasRoom (framesOf calls)) :
    ∃ copy, (Player.new patch.unfold).1 = .ok copy ∧
      untilFailure (player.renders calls (Player.new patch).2).1
        = untilFailure (copy.renders calls (Player.new patch.unfold).2).1 := by
  rw [fst_new_eq_ok_iff] at hplayer
  obtain ⟨output, houtput, hstereo, rfl⟩ := hplayer
  have hid : output < patch.rack.nodes.size := by
    unfold Rack.isStereo at hstereo
    split at hstereo
    next hnode => exact (Array.getElem?_eq_some_iff.1 hnode).1
    next => cases hstereo
  obtain ⟨hunfold, copy, origin, hcopy, rfl, hmirrors⟩ :=
    Patch.get?_unfold hrack hunplayed houtput hid
  have hstereo' : patch.unfold.rack.isStereo copy = true := by
    rw [hmirrors.isStereo_eq]
    exact hstereo
  refine ⟨{ output := copy }, ?_, ?_⟩
  · rw [fst_new_eq_ok_iff]
    exact ⟨copy, hcopy, hstereo', rfl⟩
  · have hracks : Rack.Mirrors origin copy (Player.new patch.unfold).2.rack
        (Player.new patch).2.rack := by
      rw [rack_new, rack_new]
      exact hmirrors
    apply renders_mirror calls hracks
    · rfl
    · rfl
    · rw [rack_new]
      exact hunfold.wellFormed
    · rw [rack_new]
      exact hrack.wellFormed
    · rw [rack_new]
      exact hroom

def selfPanned : Patch where
  rack := ((({} : Rack).add (.constant 440)).2.add (.oscillator .saw 0)).2.add (.pan 1 1) |>.2
  table := { entries := [(outputName, 2)] }

theorem renders_unfold_selfPanned :
    ∃ copy, (Player.new selfPanned.unfold).1 = .ok copy ∧
      untilFailure (renders { output := 2 } [({}, 2), ({}, 5000)] (Player.new selfPanned).2).1
        = untilFailure (copy.renders [({}, 2), ({}, 5000)] (Player.new selfPanned.unfold).2).1 := by
  have hempty : Rack.Reachable {} := Rack.Reachable.empty {}
  have hconstant : (({} : Rack).add (.constant 440)).2.Reachable :=
    hempty.add (by simp [Device.inputs])
  have hsaw : ((({} : Rack).add (.constant 440)).2.add (.oscillator .saw 0)).2.Reachable :=
    hconstant.add (by simp [Device.inputs])
  apply renders_unfold
  · exact hsaw.add (by simp [Device.inputs])
  · exact (((Rack.Unplayed.empty {}).add _).add _).add _
  · rfl
  · exact (((Rack.HasRoom.empty {} _).add _).add _).add _

end Player
end PatchSynth
