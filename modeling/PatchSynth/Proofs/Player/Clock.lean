import PatchSynth.Proofs.Pcm
import PatchSynth.Proofs.Player.Offline
import PatchSynth.Proofs.Player.Pcm
import PatchSynth.Proofs.Player.Reply
import PatchSynth.Proofs.Rack.History

/-!
This module contains the clock of a player: it counts the blocks that were attempted, whatever came
of them, and an attempt is a pull of the output at the time of its number. Between two calls others
may do with the patch what they like.
-/

namespace PatchSynth

def Rack.answers (rack : Rack) : List (Request × Nat) → List (Except Error Block)
  | [] => []
  | (request, root) :: rest =>
    (rack.output request root).1 :: (rack.output request root).2.answers rest

def Patch.afterPulls (patch : Patch) (pulls : List (Request × Nat)) : Patch :=
  { patch with
    rack := patch.rack.outputs pulls
    log := patch.log ++ pulls.map fun pull => Event.rendering pull.1.timestamp pull.1.frames }

/--
Whether attempts at blocks are what a call asks for, and a reply is what comes of them.
-/
def Play.Tells : Play → List (Except Error Block) → Reply → Prop
  | .render _ _, tried, reply => ∃ result, tried = [result] ∧ reply = .block result
  | .renderPcm _ out, tried, reply =>
    (∃ block written, tried = [.ok block] ∧
      reply = .pcm (.ok (min (out.size / 2) maxFrames)) written ∧
      block.size = 2 * min (out.size / 2) maxFrames ∧
      (∀ index : Nat, written[index]?
        = if index < 2 * min (out.size / 2) maxFrames then
            block[index]?.map (Pcm.ofSample Pcm.playbackScaler)
          else
            out[index]?) ∧
      ∀ (index : Nat) (sample : Float32), block[index]? = some sample →
        ∃ value, written[index]? = some value ∧ value.toInt = Pcm.scaled 32767 sample) ∨
    ∃ e, tried = [.error e] ∧ reply = .pcm (.error e) out
  | .runOffline _ count _, tried, reply =>
    (∃ blocks : List Block, tried = blocks.map .ok ∧ blocks.length = count ∧
      reply = .done (.ok ())) ∨
    ∃ (blocks : List Block) (e : Error), tried = blocks.map .ok ++ [.error e] ∧
      blocks.length < count ∧ reply = .done (.error e)

namespace Player

def ticks (player : Player) (calls : List (Controls × Nat)) : List (Request × Nat) :=
  (calls.zipIdx player.clock).map fun ((controls, frames), timestamp) =>
    ({ timestamp, frames, controls }, player.output)

/--
Do what a player is asked for in order. Each call finds a patch of its own, for others may have
changed it since the call before.
-/
def serve (player : Player) : List (Patch × Play) → List (Reply × Patch) × Player
  | [] => ([], player)
  | (patch, play) :: rest =>
    let (reply, player, patch) := player.reply patch play
    let (replies, player) := player.serve rest
    ((reply, patch) :: replies, player)

/--
Whether a call amounts to attempts at blocks that a player makes one after the other: the ones that
it asks for, at the times from the clock on, as they would be made one by one.
-/
structure Accounts (player : Player) (turn : Patch × Play) (tried : List (Except Error Block))
    (done : Reply × Patch) : Prop where
  tells : turn.2.Tells tried done.1
  answers_eq : turn.1.rack.answers (player.ticks (turn.2.calls.take tried.length)) = tried
  after_eq : done.2 = turn.1.afterPulls (player.ticks (turn.2.calls.take tried.length))
  renders_eq : player.renders (turn.2.calls.take tried.length) turn.1
    = (tried, { player with clock := player.clock + tried.length }, done.2)

variable {player : Player} {patch : Patch}

theorem later_render (player : Player) (controls : Controls) (frames : Nat) (patch : Patch) :
    patch.rack.Later (player.render controls frames patch).2.2.rack :=
  Rack.Later.refl.output { timestamp := player.clock, frames, controls } player.output

theorem ticks_cons (player : Player) (controls : Controls) (frames : Nat)
    (rest : List (Controls × Nat)) :
    player.ticks ((controls, frames) :: rest)
      = ({ timestamp := player.clock, frames, controls }, player.output)
        :: { player with clock := player.clock + 1 }.ticks rest := rfl

theorem afterPulls_ticks_cons (player : Player) (controls : Controls) (frames : Nat)
    (rest : List (Controls × Nat)) (patch : Patch) :
    patch.afterPulls (player.ticks ((controls, frames) :: rest))
      = (player.render controls frames patch).2.2.afterPulls
          ((player.render controls frames patch).2.1.ticks rest) := by
  rw [ticks_cons]
  simp [Patch.afterPulls, Rack.outputs, render, Patch.note]

theorem renders_eq_answers (player : Player) (calls : List (Controls × Nat)) (patch : Patch) :
    player.renders calls patch
      = (patch.rack.answers (player.ticks calls),
          { player with clock := player.clock + calls.length },
          patch.afterPulls (player.ticks calls)) := by
  induction calls generalizing player patch with
  | nil => simp [renders, ticks, Patch.afterPulls, Rack.answers, Rack.outputs]
  | cons call rest ih =>
    obtain ⟨controls, frames⟩ := call
    rw [renders, afterPulls_ticks_cons, List.length_cons, Nat.add_comm rest.length,
      ← Nat.add_assoc]
    dsimp only
    rw [ih]
    rfl

theorem exists_tried_runOffline (controls : Controls) (count frames : Nat) :
    ∃ tried, (Play.runOffline controls count frames).Tells tried
        (.done (player.runOffline controls count frames patch).1) ∧
      player.renders ((List.replicate count (controls, frames)).take tried.length) patch
        = (tried, (player.runOffline controls count frames patch).2) := by
  induction count generalizing player patch with
  | zero => exact ⟨[], Or.inl ⟨[], rfl, rfl, rfl⟩, rfl⟩
  | succ count ih =>
    rw [runOffline]
    cases hrender : player.render controls frames patch with
    | mk result next =>
      cases result with
      | error e =>
        refine ⟨[.error e], Or.inr ⟨[], e, rfl, Nat.succ_pos count, rfl⟩, ?_⟩
        simp [List.replicate_succ, renders, hrender]
      | ok block =>
        obtain ⟨tried, htells, hrenders⟩ := @ih next.1 next.2
        refine ⟨.ok block :: tried, ?_, ?_⟩
        · obtain ⟨blocks, htried, hlength, hreply⟩ | ⟨blocks, e, htried, hlength, hreply⟩ := htells
          · refine Or.inl ⟨block :: blocks, ?_, ?_, hreply⟩
            · rw [htried, List.map_cons]
            · rw [List.length_cons, hlength]
          · refine Or.inr ⟨block :: blocks, e, ?_, ?_, hreply⟩
            · rw [htried, List.map_cons, List.cons_append]
            · rw [List.length_cons]
              omega
        · rw [List.length_cons, List.replicate_succ, List.take_succ_cons, renders, hrender]
          dsimp only
          rw [hrenders]

theorem tells_renderPcm (hrack : patch.rack.WellFormed)
    (hstereo : patch.rack.isStereo player.output = true) (controls : Controls)
    (out : Array Int16) :
    (Play.renderPcm controls out).Tells
      [(player.render controls (framesFor out.size) patch).1]
      (player.reply patch (.renderPcm controls out)).1 := by
  rw [reply]
  cases hresult : (player.render controls (framesFor out.size) patch).1 with
  | error e =>
    rw [renderPcm_of_error hresult]
    exact Or.inr ⟨e, rfl, rfl⟩
  | ok block =>
    rw [renderPcm_of_ok hrack hstereo hresult]
    have hsize : block.size = 2 * min (out.size / 2) maxFrames :=
      size_of_render hrack hstereo (framesFor_le _) hresult
    refine Or.inl ⟨block, _, rfl, rfl, hsize, ?_, ?_⟩
    · intro index
      rw [← hsize]
      exact Pcm.getElem?_overlay block out index
    · intro index sample hsample
      obtain ⟨hindex, -⟩ := Array.getElem?_eq_some_iff.1 hsample
      refine ⟨Pcm.ofSample Pcm.playbackScaler sample, ?_, Pcm.toInt_ofSample_eq _ _⟩
      rw [Pcm.getElem?_overlay, if_pos hindex, hsample, Option.map_some]

theorem exists_tried (hrack : patch.rack.WellFormed)
    (hstereo : patch.rack.isStereo player.output = true) (play : Play) :
    ∃ tried, play.Tells tried (player.reply patch play).1 ∧
      player.renders (play.calls.take tried.length) patch
        = (tried, (player.reply patch play).2) := by
  cases play with
  | render controls frames => exact ⟨_, ⟨_, rfl, rfl⟩, rfl⟩
  | renderPcm controls out =>
    refine ⟨_, tells_renderPcm hrack hstereo controls out, ?_⟩
    have hnext : (player.reply patch (.renderPcm controls out)).2
        = (player.render controls (framesFor out.size) patch).2 := snd_renderPcm ..
    rw [hnext]
    rfl
  | runOffline controls count frames => exact exists_tried_runOffline controls count frames

theorem exists_accounts (hrack : patch.rack.WellFormed)
    (hstereo : patch.rack.isStereo player.output = true) (play : Play) :
    ∃ tried, (player.reply patch play).2.1 = { player with clock := player.clock + tried.length } ∧
      player.Accounts (patch, play) tried
        ((player.reply patch play).1, (player.reply patch play).2.2) := by
  obtain ⟨tried, htells, hrenders⟩ := exists_tried hrack hstereo play
  have hanswers := hrenders
  rw [renders_eq_answers, Prod.mk.injEq] at hanswers
  obtain ⟨htried, hnext⟩ := hanswers
  have hlength : (play.calls.take tried.length).length = tried.length := by
    rw [← length_renders player _ patch, hrenders]
  rw [hlength] at hnext
  refine ⟨tried, by rw [← hnext], htells, htried, by rw [← hnext], ?_⟩
  rw [hrenders, ← hnext]

theorem accounts_of_serve (player : Player) (turns : List (Patch × Play))
    (hturns : ∀ turn ∈ turns, turn.1.rack.WellFormed ∧ turn.1.rack.isStereo player.output = true) :
    ∃ attempts : List (List (Except Error Block)),
      attempts.length = turns.length ∧ (player.serve turns).1.length = turns.length ∧
      (player.serve turns).2 = { player with clock := player.clock + attempts.flatten.length } ∧
      ∀ index turn tried done, turns[index]? = some turn → attempts[index]? = some tried →
        (player.serve turns).1[index]? = some done →
          { player with clock := player.clock + (attempts.take index).flatten.length }.Accounts turn
            tried done := by
  induction turns generalizing player with
  | nil => exact ⟨[], rfl, rfl, rfl, fun _ _ _ _ h => by cases h⟩
  | cons turn rest ih =>
    obtain ⟨patch, play⟩ := turn
    obtain ⟨⟨hrack, hstereo⟩, hrest⟩ := List.forall_mem_cons.1 hturns
    obtain ⟨tried, hnext, haccounts⟩ := exists_accounts hrack hstereo play
    obtain ⟨attempts, hlength, hreplies, hlast, hlater⟩ :=
      ih { player with clock := player.clock + tried.length } hrest
    rw [← hnext] at hreplies hlast hlater
    refine ⟨tried :: attempts, ?_, ?_, ?_, ?_⟩
    · rw [List.length_cons, List.length_cons, hlength]
    · rw [serve, List.length_cons, List.length_cons, hreplies]
    · rw [serve]
      dsimp only
      rw [hlast, hnext, List.flatten_cons, List.length_append, Nat.add_assoc]
    · intro index turn now done hturn hnow hdone
      cases index with
      | zero =>
        cases hturn
        cases hnow
        cases hdone
        exact haccounts
      | succ index =>
        -- The clock starts later by the attempts of the first call.
        have h := hlater index turn now done hturn hnow hdone
        rw [hnext, Nat.add_assoc, ← List.length_append, ← List.flatten_cons,
          ← List.take_succ_cons] at h
        exact h

/--
The clock of a player counts the blocks that were attempted in calls of all kinds since it was made,
the failed ones too, and each attempt is made at the time of its number, whatever others do with the
patch between two calls.
-/
theorem clock_of_serve (hrack : patch.rack.Reachable) (hplayer : (Player.new patch).1 = .ok player)
    (turns : List (Patch × Play)) (hturns : ∀ turn ∈ turns, patch.rack.Later turn.1.rack) :
    ∃ attempts : List (List (Except Error Block)),
      attempts.length = turns.length ∧ (player.serve turns).1.length = turns.length ∧
      (player.serve turns).2 = { player with clock := attempts.flatten.length } ∧
      ∀ index turn tried done, turns[index]? = some turn → attempts[index]? = some tried →
        (player.serve turns).1[index]? = some done →
          { player with clock := (attempts.take index).flatten.length }.Accounts turn tried
            done := by
  obtain ⟨output, -, hstereo, rfl⟩ := fst_new_eq_ok_iff.1 hplayer
  have haccounts := accounts_of_serve { output } turns fun turn hturn =>
    ⟨(hturns turn hturn).wellFormed hrack.wellFormed, (hturns turn hturn).isStereo hstereo⟩
  simpa only [Nat.zero_add] using haccounts

def misplacedText : String :=
  "Constant far(7)\nPan output(far, far)"

def misplaced : Patch :=
  (Patch.parse {} Registry.standard misplacedText).2

def misplacedTurns : List (Patch × Play) :=
  let first := (render { output := 1 } {} 2 misplaced).2.2
  let second := (render { output := 1, clock := 1 } {} 1 first).2.2
  [(misplaced, .render {} 2), (first, .renderPcm {} #[1, 2, 3]), (second, .runOffline {} 5 2)]

theorem clock_of_serve_misplaced :
    misplaced.rack.Reachable ∧ (Player.new misplaced).1 = .ok { output := 1 } ∧
      (∀ turn ∈ misplacedTurns, misplaced.rack.Later turn.1.rack) ∧
      ∃ attempts : List (List (Except Error Block)), attempts.flatten.length = 3 ∧
        (serve { output := 1 } misplacedTurns).2 = { output := 1, clock := 3 } ∧
        ∀ index turn tried done, misplacedTurns[index]? = some turn →
          attempts[index]? = some tried →
          (serve { output := 1 } misplacedTurns).1[index]? = some done →
            Accounts { output := 1, clock := (attempts.take index).flatten.length } turn tried
              done := by
  have hrack : misplaced.rack.Reachable := ((Patch.Built.empty {}).parse misplacedText).reachable
  have hplayer : (Player.new misplaced).1 = .ok { output := 1 } :=
    fst_new_eq_ok_iff.2 ⟨1, rfl, rfl, rfl⟩
  have hturns : ∀ turn ∈ misplacedTurns, misplaced.rack.Later turn.1.rack := by
    simp only [misplacedTurns, List.forall_mem_cons]
    refine ⟨Rack.Later.refl, later_render .., (later_render ..).trans (later_render ..), ?_⟩
    exact List.forall_mem_nil _
  have hclock : (serve { output := 1 } misplacedTurns).2 = { output := 1, clock := 3 } := rfl
  obtain ⟨attempts, -, -, hlast, haccounts⟩ := clock_of_serve hrack hplayer misplacedTurns hturns
  rw [hclock, Player.mk.injEq] at hlast
  exact ⟨hrack, hplayer, hturns, attempts, hlast.2.symm, hclock, haccounts⟩

end Player
end PatchSynth
