import PatchSynth.Proofs.Player.Run

/-!
This module contains what a player leaves in PCM buffers: the scaled samples of a block where there
is room for whole frames, and what the buffer held before behind them.
-/

namespace PatchSynth

namespace Pcm

variable {block : Block} {out : Array Int16}

def overlay (block : Block) (out : Array Int16) : Array Int16 :=
  block.map (ofSample playbackScaler) ++ out.extract block.size out.size

theorem convert_of_size_eq (scaler : Float32) (h : block.size = out.size) :
    convert scaler block out = block.map (ofSample scaler) := by
  simp [convert, ← h]

theorem getElem?_overlay (block : Block) (out : Array Int16) (index : Nat) :
    (overlay block out)[index]?
      = if index < block.size then
          block[index]?.map (ofSample playbackScaler)
        else
          out[index]? := by
  unfold overlay
  split
  next h => rw [Array.getElem?_append_left (by simpa using h), Array.getElem?_map]
  next h =>
    rw [Array.getElem?_append_right (by simpa using h), Array.size_map, Array.getElem?_extract,
      Nat.min_self, Nat.add_sub_of_le (Nat.le_of_not_lt h)]
    split
    next => rfl
    next hbehind => rw [Array.getElem?_eq_none (by omega)]

end Pcm

namespace Rack

theorem size_blockOf {rack : Rack} {id frames : Nat} (hrack : rack.WellFormed)
    (hstereo : rack.isStereo id = true) (hframes : frames ≤ maxFrames) :
    (rack.blockOf id frames).size = 2 * frames := by
  obtain ⟨node, hnode, hdevice⟩ := exists_of_isStereo hstereo
  rw [blockOf, hnode]
  dsimp only
  rw [Node.size_block (hrack.sound hnode) hframes, Device.channels, hdevice, Nat.mul_comm]
  rfl

end Rack

namespace Player

variable {player : Player} {patch : Patch} {controls : Controls} {frames : Nat} {block : Block}
  {out : Array Int16}

theorem framesFor_le (size : Nat) : framesFor size ≤ maxFrames :=
  Nat.min_le_right _ _

theorem two_mul_framesFor_le (size : Nat) : 2 * framesFor size ≤ size := by
  unfold framesFor
  omega

theorem size_of_render (hrack : patch.rack.WellFormed)
    (hstereo : patch.rack.isStereo player.output = true) (hframes : frames ≤ maxFrames)
    (h : (player.render controls frames patch).1 = .ok block) : block.size = 2 * frames := by
  have hnext : (player.render controls frames patch).2.2.rack.WellFormed :=
    wellFormed_render hrack controls frames
  rw [render_of_refresh (refresh_of_render h), Except.ok.injEq] at h
  rw [← h, Nat.min_eq_left hframes, Rack.size_blockOf hnext _ hframes]
  rw [Rack.isStereo_of_shape (shape_render player controls frames patch), hstereo]

theorem isStereo_render (hstereo : patch.rack.isStereo player.output = true) (controls : Controls)
    (frames : Nat) :
    (player.render controls frames patch).2.2.rack.isStereo
      (player.render controls frames patch).2.1.output = true := by
  rw [Rack.isStereo_of_shape (shape_render ..)]
  exact hstereo

theorem snd_renderPcm (player : Player) (controls : Controls) (out : Array Int16) (patch : Patch) :
    (player.renderPcm controls out patch).2.2
      = (player.render controls (framesFor out.size) patch).2 := by
  unfold renderPcm
  dsimp only
  cases player.render controls (framesFor out.size) patch with
  | mk result next => cases result <;> rfl

theorem renderPcm_of_ok (hrack : patch.rack.WellFormed)
    (hstereo : patch.rack.isStereo player.output = true)
    (h : (player.render controls (framesFor out.size) patch).1 = .ok block) :
    player.renderPcm controls out patch
      = (.ok (framesFor out.size), Pcm.overlay block out,
          (player.render controls (framesFor out.size) patch).2) := by
  have hsize := size_of_render hrack hstereo (framesFor_le _) h
  have hfront : block.size = (out.extract 0 (2 * framesFor out.size)).size := by
    have := two_mul_framesFor_le out.size
    rw [hsize, Array.size_extract]
    omega
  unfold renderPcm
  dsimp only
  cases hrender : player.render controls (framesFor out.size) patch with
  | mk result next =>
    rw [hrender] at h
    cases h
    simp only [Pcm.convertStereo, Pcm.convert_of_size_eq _ hfront, Pcm.overlay, hsize]

theorem renderPcm_of_error {e : Error}
    (h : (player.render controls (framesFor out.size) patch).1 = .error e) :
    player.renderPcm controls out patch
      = (.error e, out, (player.render controls (framesFor out.size) patch).2) := by
  unfold renderPcm
  dsimp only
  cases hrender : player.render controls (framesFor out.size) patch with
  | mk result next =>
    rw [hrender] at h
    cases h
    rfl

theorem exists_of_renderPcm (hrack : patch.rack.WellFormed)
    (hstereo : patch.rack.isStereo player.output = true)
    (h : (player.renderPcm controls out patch).1 = .ok frames) :
    ∃ block, (player.render controls (framesFor out.size) patch).1 = .ok block ∧
      block.size = 2 * frames ∧
      player.renderPcm controls out patch
        = (.ok frames, Pcm.overlay block out,
            (player.render controls (framesFor out.size) patch).2) := by
  cases hresult : (player.render controls (framesFor out.size) patch).1 with
  | error e =>
    rw [renderPcm_of_error hresult] at h
    cases h
  | ok block =>
    have hplayed := renderPcm_of_ok hrack hstereo hresult
    rw [hplayed, Except.ok.injEq] at h
    subst h
    exact ⟨block, rfl, size_of_render hrack hstereo (framesFor_le _) hresult, hplayed⟩

end Player
end PatchSynth
