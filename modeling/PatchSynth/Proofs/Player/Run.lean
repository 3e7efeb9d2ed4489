import PatchSynth.Proofs.Player.Render
import PatchSynth.Proofs.Rack.Tape

/-!
This module contains runs of a player, block after block, whichever way each block is asked for:
which nodes they fill, and what recorders are given.
-/

namespace PatchSynth

def Recorder.takeAll (recorder : Recorder) : List Block → Except FileError Recorder
  | [] => .ok recorder
  | block :: rest =>
    match recorder.take block with
    | (.ok (), recorder) => recorder.takeAll rest
    | (.error e, _) => .error e

theorem Recorder.takeAll_cons {recorder : Recorder} {block : Block}
    (h : (recorder.take block).1 = .ok ()) (rest : List Block) :
    recorder.takeAll (block :: rest) = (recorder.take block).2.takeAll rest := by
  rw [takeAll]
  split
  next htake => rw [htake]
  next htake =>
    rw [htake] at h
    cases h

inductive Play where
  | render (controls : Controls) (frames : Nat)
  | renderPcm (controls : Controls) (out : Array Int16)
  | runOffline (controls : Controls) (blocks frames : Nat)

def Play.calls : Play → List (Controls × Nat)
  | .render controls frames => [(controls, frames)]
  | .renderPcm controls out => [(controls, Player.framesFor out.size)]
  | .runOffline controls blocks frames => List.replicate blocks (controls, frames)

namespace Player

def play (player : Player) (patch : Patch) : Play → Except Error Unit × Player × Patch
  | .render controls frames =>
    let (result, player, patch) := player.render controls frames patch
    (result.map fun _ => (), player, patch)
  | .renderPcm controls out =>
    let (result, _, player, patch) := player.renderPcm controls out patch
    (result.map fun _ => (), player, patch)
  | .runOffline controls blocks frames => player.runOffline controls blocks frames patch

def run (player : Player) (patch : Patch) : List Play → Except Error Unit × Player × Patch
  | [] => (.ok (), player, patch)
  | play :: rest =>
    match player.play patch play with
    | (.error e, player, patch) => (.error e, player, patch)
    | (.ok (), player, patch) => player.run patch rest

def advance (player : Player) (patch : Patch) :
    List (Controls × Nat) → Except Error Unit × Player × Patch
  | [] => (.ok (), player, patch)
  | (controls, frames) :: rest =>
    match player.render controls frames patch with
    | (.error e, player, patch) => (.error e, player, patch)
    | (.ok _, player, patch) => player.advance patch rest

def blocksOf (player : Player) (id : Nat) (patch : Patch) : List (Controls × Nat) → List Block
  | [] => []
  | (controls, frames) :: rest =>
    let (_, player, patch) := player.render controls frames patch
    patch.rack.blockOf id (min frames maxFrames) :: player.blocksOf id patch rest

variable {player last : Player} {patch played : Patch}

theorem advance_append (calls rest : List (Controls × Nat)) :
    player.advance patch (calls ++ rest) =
      match player.advance patch calls with
      | (.error e, player, patch) => (.error e, player, patch)
      | (.ok (), player, patch) => player.advance patch rest := by
  induction calls generalizing player patch with
  | nil => rfl
  | cons call calls ih =>
    obtain ⟨controls, frames⟩ := call
    simp only [List.cons_append, advance]
    split
    next => rfl
    next => rw [ih]

theorem runOffline_eq_advance (controls : Controls) (blocks frames : Nat) :
    player.runOffline controls blocks frames patch
      = player.advance patch (List.replicate blocks (controls, frames)) := by
  induction blocks generalizing player patch with
  | zero => rfl
  | succ blocks ih =>
    simp only [runOffline, List.replicate_succ, advance]
    cases player.render controls frames patch with
    | mk result next =>
      cases result with
      | error e => rfl
      | ok block => exact ih

theorem play_eq_advance (play : Play) :
    player.play patch play = player.advance patch play.calls := by
  cases play with
  | render controls frames =>
    rw [Player.play, Play.calls, advance]
    cases player.render controls frames patch with
    | mk result next => cases result <;> rfl
  | renderPcm controls out =>
    rw [Player.play, Play.calls, advance, renderPcm]
    dsimp only
    cases player.render controls (framesFor out.size) patch with
    | mk result next => cases result <;> rfl
  | runOffline controls blocks frames => exact runOffline_eq_advance controls blocks frames

theorem run_eq_advance (plays : List Play) :
    player.run patch plays = player.advance patch (plays.flatMap Play.calls) := by
  induction plays generalizing player patch with
  | nil => rfl
  | cons play rest ih =>
    rw [List.flatMap_cons, advance_append, run, play_eq_advance]
    cases player.advance patch play.calls with
    | mk result next =>
      cases result with
      | error e => rfl
      | ok _ => exact ih

theorem advance_cons {controls : Controls} {frames : Nat} {rest : List (Controls × Nat)}
    (h : player.advance patch ((controls, frames) :: rest) = (.ok (), last, played)) :
    (patch.rack.refresh (player.request controls frames) player.output).1 = .ok () ∧
      (player.render controls frames patch).2.1.advance (player.render controls frames patch).2.2
        rest = (.ok (), last, played) := by
  rw [advance] at h
  split at h
  next => cases h
  next block next patch' hrender =>
    have hblock : (player.render controls frames patch).1 = .ok block := by rw [hrender]
    refine ⟨refresh_of_render hblock, ?_⟩
    rw [hrender]
    exact h

theorem blocksOf_cons (id : Nat) (controls : Controls) (frames : Nat)
    (rest : List (Controls × Nat)) :
    player.blocksOf id patch ((controls, frames) :: rest)
      = (patch.rack.refresh (player.request controls frames) player.output).2.blockOf id
          (min frames maxFrames)
        :: (player.render controls frames patch).2.1.blocksOf id
          (player.render controls frames patch).2.2 rest := by
  rw [← rack_render]
  rfl

theorem render_of_refresh {controls : Controls} {frames : Nat}
    (h : (patch.rack.refresh (player.request controls frames) player.output).1 = .ok ()) :
    (player.render controls frames patch).1
      = .ok ((player.render controls frames patch).2.2.rack.blockOf player.output
          (min frames maxFrames)) := by
  rw [fst_render, rack_render, h]
  rfl

theorem renders_of_advance {calls : List (Controls × Nat)}
    (h : (player.advance patch calls).1 = .ok ()) :
    player.renders calls patch
      = ((player.blocksOf player.output patch calls).map .ok, (player.advance patch calls).2) := by
  induction calls generalizing player patch with
  | nil => rfl
  | cons call rest ih =>
    obtain ⟨controls, frames⟩ := call
    have hrun : player.advance patch ((controls, frames) :: rest)
        = (.ok (), (player.advance patch ((controls, frames) :: rest)).2) := by
      rw [← h]
    obtain ⟨hok, hrest⟩ := advance_cons hrun
    have hfirst := render_of_refresh hok
    rw [rack_render] at hfirst
    rw [renders, blocksOf_cons, List.map_cons]
    dsimp only
    rw [hfirst, ih (by rw [hrest]), hrest]
    rfl

theorem advance_of_renders {calls : List (Controls × Nat)} {blocks : List Block}
    (h : (player.renders calls patch).1 = blocks.map .ok) :
    (player.advance patch calls).1 = .ok () := by
  induction calls generalizing player patch blocks with
  | nil => rfl
  | cons call rest ih =>
    obtain ⟨controls, frames⟩ := call
    rw [renders] at h
    cases blocks with
    | nil => cases h
    | cons block blocks =>
      rw [List.map_cons] at h
      dsimp only at h
      rw [List.cons.injEq] at h
      obtain ⟨hfirst, hrest⟩ := h
      have hadvance := ih hrest
      rw [advance]
      split
      next hrender =>
        rw [hrender] at hfirst
        cases hfirst
      next hrender =>
        rw [hrender] at hadvance
        exact hadvance

theorem isStale_succ {node : Node} {clock : Nat} (h : node.last = some clock) :
    node.isStale (clock + 1) = true := by
  simp [Node.isStale, h]

theorem shape_render (player : Player) (controls : Controls) (frames : Nat) (patch : Patch) :
    (player.render controls frames patch).2.2.rack.shape = patch.rack.shape := by
  rw [rack_render, Rack.shape_refresh]

theorem fileOf_render (player : Player) (controls : Controls) (frames : Nat) (patch : Patch) :
    (player.render controls frames patch).2.2.rack.fileOf = patch.rack.fileOf := by
  have hsteps := (Rack.steps_refresh (player.request controls frames) player.output patch.rack).1
  rw [rack_render, hsteps.fileOf_eq]

theorem wellFormed_render (h : patch.rack.WellFormed) (controls : Controls) (frames : Nat) :
    (player.render controls frames patch).2.2.rack.WellFormed := by
  rw [rack_render]
  exact h.refresh (Nat.min_le_right _ _) player.output

theorem filled_of_render {controls : Controls} {frames : Nat} (hrack : patch.rack.WellFormed)
    (hok : (patch.rack.refresh (player.request controls frames) player.output).1 = .ok ())
    {id : Nat} {node : Node} (hreaches : patch.rack.Reaches player.output id)
    (hnode : patch.rack.nodes[id]? = some node) (hstale : node.isStale player.clock = true) :
    ∃ next, (player.render controls frames patch).2.2.rack.nodes[id]? = some next ∧
      (patch.rack.refresh (player.request controls frames) player.output).2.blockOf id
        (min frames maxFrames) = next.block (min frames maxFrames) ∧
      next.last = some player.clock ∧ next.fills = node.fills + 1 ∧
      ∀ recorder, node.recorder = some recorder →
        (recorder.take (next.block (min frames maxFrames))).1 = .ok () ∧
        next.recorder = some (recorder.take (next.block (min frames maxFrames))).2 ∧
        ∀ channels data, patch.rack.Alone id recorder.file →
          recorder.Holds patch.rack.files channels data →
          (recorder.take (next.block (min frames maxFrames))).2.Holds
            (player.render controls frames patch).2.2.rack.files channels
            (data ++ recorder.pcm (next.block (min frames maxFrames))) := by
  have hframes : (player.request controls frames).frames ≤ maxFrames := Nat.min_le_right _ _
  obtain ⟨next, hnext, hlast, hfills, htaken, htake⟩ :=
    hrack.node_refresh hframes hok hreaches hnode hstale
  rw [rack_render]
  refine ⟨next, hnext, ?_, hlast, hfills, ?_⟩
  · simp only [Rack.blockOf, hnext]
  · intro recorder hrecorder
    rw [hrecorder, Option.map_some] at htaken
    refine ⟨htake recorder hrecorder, htaken, ?_⟩
    intro channels data halone hholds
    exact hrack.holds_refresh hframes hok hreaches hnode hstale hrecorder halone hholds hnext

theorem filled_of_advance {calls : List (Controls × Nat)} (hrack : patch.rack.WellFormed)
    (hrun : player.advance patch calls = (.ok (), last, played)) {id : Nat} {node : Node}
    (hreaches : patch.rack.Reaches player.output id) (hnode : patch.rack.nodes[id]? = some node)
    (hstale : node.isStale player.clock = true) :
    ∃ after, played.rack.nodes[id]? = some after ∧ after.fills = node.fills + calls.length ∧
      (calls ≠ [] → after.last = some (player.clock + calls.length - 1)) ∧
      ∀ recorder, node.recorder = some recorder →
        ∃ taken, recorder.takeAll (player.blocksOf id patch calls) = .ok taken ∧
          after.recorder = some taken ∧
          ∀ channels data, patch.rack.Alone id recorder.file →
            recorder.Holds patch.rack.files channels data →
            taken.Holds played.rack.files channels
              (data ++ (player.blocksOf id patch calls).flatMap recorder.pcm) := by
  -- A node that got its block at the time of the clock is stale again at the next tick, which is
  -- what carries the induction.
  induction calls generalizing player patch node with
  | nil =>
    cases hrun
    refine ⟨node, hnode, rfl, fun h => absurd rfl h, ?_⟩
    intro recorder hrecorder
    refine ⟨recorder, rfl, hrecorder, ?_⟩
    intro channels data _ hholds
    simpa [blocksOf] using hholds
  | cons call rest ih =>
    obtain ⟨controls, frames⟩ := call
    obtain ⟨hok, hrest⟩ := advance_cons hrun
    obtain ⟨next, hnext, hblock, hlast, hfills, hfirst⟩ :=
      filled_of_render hrack hok hreaches hnode hstale
    have hreaches' : (player.render controls frames patch).2.2.rack.Reaches player.output id := by
      rw [Rack.reaches_of_shape (shape_render player controls frames patch)]
      exact hreaches
    obtain ⟨after, hafter, hfills', hlast', hrecorded⟩ :=
      ih (wellFormed_render hrack controls frames) hrest hreaches' hnext (isStale_succ hlast)
    refine ⟨after, hafter, ?_, ?_, ?_⟩
    · rw [hfills', hfills, List.length_cons]
      omega
    · intro _
      cases rest with
      | nil =>
        cases hrest
        rw [hnext] at hafter
        cases hafter
        exact hlast
      | cons second rest =>
        have hlast' := hlast' (List.cons_ne_nil _ _)
        rw [hlast', snd_render]
        simp only [List.length_cons]
        congr 1
        omega
    · intro recorder hrecorder
      obtain ⟨htake, htaken, hholdsFirst⟩ := hfirst recorder hrecorder
      obtain ⟨taken, htakeAll, hafterRecorder, hholdsRest⟩ := hrecorded _ htaken
      rw [blocksOf_cons, hblock]
      refine ⟨taken, ?_, hafterRecorder, ?_⟩
      · rw [Recorder.takeAll_cons htake]
        exact htakeAll
      · intro channels data halone hholds
        have halone' : (player.render controls frames patch).2.2.rack.Alone id
            (recorder.take (next.block (min frames maxFrames))).2.file := by
          unfold Rack.Alone
          rw [fileOf_render, Recorder.file_take]
          exact halone
        have hlater := hholdsRest channels _ halone' (hholdsFirst channels data halone hholds)
        rw [Recorder.pcm_take] at hlater
        rw [List.flatMap_cons, ← List.append_assoc]
        exact hlater

theorem unfilled_of_advance {calls : List (Controls × Nat)}
    (hrun : player.advance patch calls = (.ok (), last, played)) {id : Nat}
    (hreaches : ¬ patch.rack.Reaches player.output id) :
    played.rack.nodes[id]? = patch.rack.nodes[id]? ∧
      ∀ file, patch.rack.Alone id file → patch.rack.fileOf id = some file →
        played.rack.files.contents.lookup file = patch.rack.files.contents.lookup file := by
  induction calls generalizing player patch with
  | nil =>
    cases hrun
    exact ⟨rfl, fun _ _ _ => rfl⟩
  | cons call rest ih =>
    obtain ⟨controls, frames⟩ := call
    obtain ⟨-, hrest⟩ := advance_cons hrun
    have hsteps := (Rack.steps_refresh (player.request controls frames) player.output patch.rack).1
    have hreaches' : ¬ (player.render controls frames patch).2.2.rack.Reaches player.output id := by
      rw [Rack.reaches_of_shape (shape_render player controls frames patch)]
      exact hreaches
    obtain ⟨hnodes, hfiles⟩ := ih hrest hreaches'
    constructor
    · rw [hnodes, rack_render]
      exact Rack.nodes_refresh_of_not_reaches hreaches
    · intro file halone hfile
      rw [hfiles file]
      · rw [rack_render]
        apply hsteps.lookup_of_ne
        intro other hcone
        apply halone
        -- The node itself does not take part in the pull, because the output does not reach it.
        rintro rfl
        exact hreaches hcone.2
      · unfold Rack.Alone
        rw [fileOf_render]
        exact halone
      · rw [fileOf_render]
        exact hfile

end Player
end PatchSynth
