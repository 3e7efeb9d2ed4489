import PatchSynth.Proofs.Player.Run

/-!
This module contains what the callers of a player are told, and when two patches cannot be told
apart by it.
-/

namespace PatchSynth

inductive Reply where
  | block (result : Except Error Block)
  | pcm (result : Except Error Nat) (out : Array Int16)
  | done (result : Except Error Unit)
  | nothing

def Avoids {α : Type} (excluded : Error → Prop) (result : Except Error α) : Prop :=
  ∀ e, result = .error e → ¬ excluded e

/--
Whether a node gives the same blocks in any two racks that are alike and leaves them alike, unless
one of the calls fails in an excluded way.
-/
def Rack.Carries (alike : Rack → Rack → Prop) (excluded : Error → Prop) (id : Nat) : Prop :=
  ∀ (rack other : Rack) (request : Request), alike rack other →
    Avoids excluded (rack.output request id).1 → Avoids excluded (other.output request id).1 →
      (other.output request id).1 = (rack.output request id).1 ∧
        alike (rack.output request id).2 (other.output request id).2

namespace Player

def reply (player : Player) (patch : Patch) : Play → Reply × Player × Patch
  | .render controls frames =>
    let (result, player, patch) := player.render controls frames patch
    (.block result, player, patch)
  | .renderPcm controls out =>
    let (result, out, player, patch) := player.renderPcm controls out patch
    (.pcm result out, player, patch)
  | .runOffline controls blocks frames =>
    let (result, player, patch) := player.runOffline controls blocks frames patch
    (.done result, player, patch)

variable {player : Player} {patch other : Patch}

theorem snd_reply (player : Player) (patch : Patch) (play : Play) :
    (player.reply patch play).2 = (player.play patch play).2 := by
  cases play <;> rfl

theorem output_advance (player : Player) (patch : Patch) (calls : List (Controls × Nat)) :
    (player.advance patch calls).2.1.output = player.output := by
  induction calls generalizing player patch with
  | nil => rfl
  | cons call rest ih =>
    obtain ⟨controls, frames⟩ := call
    have hrender : (player.render controls frames patch).2.1.output = player.output := rfl
    rw [advance]
    split
    next hresult =>
      rw [hresult] at hrender
      exact hrender
    next hresult =>
      rw [hresult] at hrender
      exact (ih _ _).trans hrender

theorem output_play (player : Player) (patch : Patch) (play : Play) :
    (player.play patch play).2.1.output = player.output := by
  rw [play_eq_advance]
  exact output_advance player patch play.calls

structure Alike {α : Type} (alike : Rack → Rack → Prop) (run twin : α × Player × Patch) : Prop where
  fst_eq : twin.1 = run.1
  player_eq : twin.2.1 = run.2.1
  rack : alike run.2.2.rack twin.2.2.rack

section

variable {alike : Rack → Rack → Prop} {excluded : Error → Prop}

theorem Alike.exists_eq {α : Type} {run twin : α × Player × Patch} (h : Alike alike run twin) :
    ∃ result player patch other, run = (result, player, patch) ∧ twin = (result, player, other) ∧
      alike patch.rack other.rack :=
  ⟨run.1, run.2.1, run.2.2, twin.2.2, rfl, Prod.ext h.fst_eq (Prod.ext h.player_eq rfl), h.rack⟩

theorem avoids_render {controls : Controls} {frames : Nat} {rest : List (Controls × Nat)}
    (h : Avoids excluded (player.advance patch ((controls, frames) :: rest)).1) :
    Avoids excluded (player.render controls frames patch).1 := by
  intro e herror
  apply h e
  rw [advance]
  generalize player.render controls frames patch = rendered at herror
  obtain ⟨result, next, patch⟩ := rendered
  dsimp only at herror
  rw [herror]

theorem alike_render (hcarries : Rack.Carries alike excluded player.output)
    (h : alike patch.rack other.rack) {controls : Controls} {frames : Nat}
    (hrun : Avoids excluded (player.render controls frames patch).1)
    (htwin : Avoids excluded (player.render controls frames other).1) :
    Alike alike (player.render controls frames patch) (player.render controls frames other) := by
  obtain ⟨hfst, hnext⟩ := hcarries patch.rack other.rack _ h hrun htwin
  exact ⟨hfst, rfl, hnext⟩

theorem alike_runOffline (hcarries : Rack.Carries alike excluded player.output)
    (h : alike patch.rack other.rack) {controls : Controls} {blocks frames : Nat}
    (hrun : Avoids excluded (player.runOffline controls blocks frames patch).1)
    (htwin : Avoids excluded (player.runOffline controls blocks frames other).1) :
    Alike alike (player.runOffline controls blocks frames patch)
      (player.runOffline controls blocks frames other) := by
  induction blocks generalizing player patch other with
  | zero => exact ⟨rfl, rfl, h⟩
  | succ blocks ih =>
    have hfirst : ∀ {patch : Patch},
        Avoids excluded (player.runOffline controls (blocks + 1) frames patch).1 →
          Avoids excluded (player.render controls frames patch).1 := by
      intro patch hrun
      rw [runOffline_eq_advance, List.replicate_succ] at hrun
      exact avoids_render hrun
    obtain ⟨result, next, now, now', heq, htwinEq, hsame⟩ :=
      (alike_render hcarries h (hfirst hrun) (hfirst htwin)).exists_eq
    have houtput : (player.render controls frames patch).2.1.output = player.output := rfl
    rw [heq] at houtput
    rw [runOffline, heq] at hrun ⊢
    rw [runOffline, htwinEq] at htwin ⊢
    cases result with
    | error e => exact ⟨rfl, rfl, hsame⟩
    | ok _ => exact ih (houtput ▸ hcarries) hsame hrun htwin

theorem alike_reply (hcarries : Rack.Carries alike excluded player.output)
    (h : alike patch.rack other.rack) {play : Play}
    (hrun : Avoids excluded (player.play patch play).1)
    (htwin : Avoids excluded (player.play other play).1) :
    Alike alike (player.reply patch play) (player.reply other play) := by
  cases play with
  | render controls frames =>
    rw [play_eq_advance] at hrun htwin
    obtain ⟨hfst, hplayer, hsame⟩ :=
      alike_render hcarries h (avoids_render hrun) (avoids_render htwin)
    exact ⟨congrArg Reply.block hfst, hplayer, hsame⟩
  | runOffline controls blocks frames =>
    obtain ⟨hfst, hplayer, hsame⟩ := alike_runOffline hcarries h hrun htwin
    exact ⟨congrArg Reply.done hfst, hplayer, hsame⟩
  | renderPcm controls out =>
    rw [play_eq_advance] at hrun htwin
    obtain ⟨result, next, now, now', heq, htwinEq, hsame⟩ :=
      (alike_render hcarries h (avoids_render hrun) (avoids_render htwin)).exists_eq
    unfold reply renderPcm
    dsimp only
    rw [heq, htwinEq]
    cases result with
    | error e => exact ⟨rfl, rfl, hsame⟩
    | ok _ => exact ⟨rfl, rfl, hsame⟩

end
end Player
end PatchSynth
