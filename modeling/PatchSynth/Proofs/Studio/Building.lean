import PatchSynth.Proofs.Player.Reply
import PatchSynth.Proofs.Rack.Local
import PatchSynth.Proofs.Studio.History

/-!
This module contains what building does to nodes that are played. A host holds on to some nodes and
a player to its output; in between lines and texts are read, and nodes are built and named, also
under names that are taken. None of this is to be heard in what is played.
-/

namespace PatchSynth

namespace Patch

variable {patch : Patch}

theorem grows_extends (patch : Patch) :
    Grows fun next => next.Named ∧ patch.rack.Extends next.rack := by
  refine ⟨fun h => h.1, ?_, ?_, fun _ h => h, fun _ h => h⟩
  · rintro next device ⟨hnamed, hextends⟩ -
    exact ⟨hnamed.build device, hextends.trans (Rack.extends_add next.rack device)⟩
  · rintro next name id ⟨hnamed, hextends⟩ hid
    refine ⟨hnamed.insert name hid, ?_⟩
    rw [rack_insert]
    exact hextends

theorem Named.extends_parse (h : patch.Named) (text : String) :
    patch.rack.Extends (patch.parse Registry.standard text).2.rack :=
  (patch.grows_extends.parse ⟨h, Rack.Extends.refl _⟩ text).2

theorem Named.extends_load (h : patch.Named) (path : String) :
    patch.rack.Extends (patch.load Registry.standard path).2.rack := by
  unfold Patch.load
  split
  next => exact Rack.Extends.refl _
  next text _ => exact h.extends_parse text

end Patch

theorem Rack.carries_sameOn {among : Nat → Prop} {base : Rack} (hclosed : base.Closed among)
    {id : Nat} (hid : among id) :
    Carries (fun rack other => rack.shape = base.shape ∧ SameOn among rack other) (fun _ => False)
      id := by
  rintro rack other request ⟨hshape, hsame⟩ - -
  obtain ⟨hfst, hnext⟩ := hsame.output (hclosed.of_shape hshape) hid request
  exact ⟨hfst, (shape_output rack request id).trans hshape, hnext⟩

namespace Studio

def Task.isBuilding : Task → Bool
  | .addLine _ _ | .parse _ | .load _ | .build _ | .insert _ _ | .insertAnonymous _ => true
  | _ => false

def Task.Plays (held : List Nat) : Task → Prop
  | .output id _ _ => id ∈ held
  | .play _ | .setAxis _ _ => True
  | _ => False

def outside (held : List Nat) (studio : Studio) : List Nat :=
  held ++ (studio.player.map (·.output)).toList

def settleHolding (held : List Nat) (studio : Studio) : Studio :=
  { studio with patch := studio.patch.settle (studio.outside held) }

def performHolding (held : List Nat) (studio : Studio) (task : Task) : Studio :=
  (studio.perform task).settleHolding held

def performAllHolding (held : List Nat) (studio : Studio) (tasks : List Task) : Studio :=
  tasks.foldl (performHolding held) studio

def AllowsHolding (held : List Nat) (studio : Studio) : List Task → Prop
  | [] => True
  | task :: rest => studio.Allows task ∧ (studio.performHolding held task).AllowsHolding held rest

def reply (studio : Studio) : Task → Reply
  | .output id timestamp frames => .block (studio.output id timestamp frames).1
  | .play play =>
    match studio.player with
    | none => .nothing
    | some player => (player.reply studio.patch play).1
  | _ => .nothing

structure Heard where
  reply : Reply
  clock : Option Nat
  nodes : List (Option Node)

/--
What is noticed of all tasks that do not build.
-/
def hear (held : List Nat) (studio : Studio) : List Task → List Heard
  | [] => []
  | task :: rest =>
    let next := studio.performHolding held task
    if task.isBuilding then
      next.hear held rest
    else
      { reply := studio.reply task
        clock := next.player.map (·.clock)
        nodes := (next.outside held).map fun id => next.patch.rack.nodes[id]? }
        :: next.hear held rest

structure Intact (studio : Studio) : Prop where
  registry_eq : studio.registry = Registry.standard
  named : studio.patch.Named
  wellFormed : studio.patch.rack.WellFormed
  player_lt : ∀ player, studio.player = some player →
    player.output < studio.patch.rack.nodes.size

variable {held : List Nat} {studio quiet busy : Studio} {task : Task}

theorem player_of_perform {player : Player} (h : (studio.perform task).player = some player) :
    (∃ old, studio.player = some old ∧ player.output = old.output) ∨
      studio.patch.table.get? Player.outputName = some player.output := by
  have hsame : studio.player = some player →
      (∃ old, studio.player = some old ∧ player.output = old.output) ∨
        studio.patch.table.get? Player.outputName = some player.output :=
    fun hold => Or.inl ⟨player, hold, rfl⟩
  cases task with
  | start =>
    have hstart : studio.start.2.player = some player := h
    unfold start at hstart
    split at hstart
    next => exact hsame hstart
    next found patch hnew =>
      cases hstart
      obtain ⟨output, houtput, -, rfl⟩ := Player.fst_new_eq_ok_iff.1 (congrArg Prod.fst hnew)
      exact Or.inr houtput
  | play play =>
    unfold perform at h
    dsimp only at h
    cases hplayer : studio.player with
    | none =>
      rw [hplayer] at h
      dsimp only at h
      rw [hplayer] at h
      cases h
    | some old =>
      rw [hplayer] at h
      cases h
      exact Or.inl ⟨old, rfl, Player.output_play old studio.patch play⟩
  | _ => exact hsame h

namespace Intact

theorem of_onward (h : studio.Intact) {next : Studio} (hregistry : next.registry = studio.registry)
    (honward : studio.patch.Onward next.patch)
    (hplayer : ∀ player, next.player = some player →
      (∃ old, studio.player = some old ∧ player.output = old.output) ∨
        studio.patch.table.get? Player.outputName = some player.output) : next.Intact := by
  refine ⟨hregistry.trans h.registry_eq, honward.named, honward.later.wellFormed h.wellFormed, ?_⟩
  intro player hsome
  have hsize := Rack.size_le_of_later honward.later
  obtain ⟨old, hold, houtput⟩ | hname := hplayer player hsome
  · have := h.player_lt old hold
    omega
  · have := h.named _ _ hname
    omega

theorem perform (h : studio.Intact) (hallowed : studio.Allows task) :
    (studio.perform task).Intact :=
  h.of_onward (registry_perform studio task) (onward_perform h.registry_eq h.named hallowed)
    fun _ => player_of_perform

theorem settleHolding (h : studio.Intact) (held : List Nat) :
    (studio.settleHolding held).Intact :=
  h.of_onward rfl (h.named.onward_settle _) fun player hplayer => Or.inl ⟨player, hplayer, rfl⟩

end Intact

theorem Reached.intact (h : studio.Reached) : studio.Intact := by
  induction h with
  | new files =>
    refine ⟨rfl, ?_, Rack.WellFormed.empty files, ?_⟩
    · intro name id hid
      cases hid
    · intro player hplayer
      cases hplayer
  | perform _ task hallowed ih => exact ih.perform hallowed

theorem extends_perform (h : studio.Intact) (hbuilding : task.isBuilding = true) :
    studio.patch.rack.Extends (studio.perform task).patch.rack := by
  have hnamed := h.named
  have hregistry := h.registry_eq
  cases task with
  | addLine lineNumber line =>
    unfold perform
    dsimp only
    rw [hregistry]
    have hparser : Patch.Named ({ patch := studio.patch, lineNumber } : Parser).patch ∧
        studio.patch.rack.Extends ({ patch := studio.patch, lineNumber } : Parser).patch.rack :=
      ⟨hnamed, Rack.Extends.refl _⟩
    exact (studio.patch.grows_extends.addLine hparser line).2
  | parse text =>
    have hparse := hnamed.extends_parse text
    rw [← hregistry] at hparse
    exact hparse
  | load path =>
    have hload := hnamed.extends_load path
    rw [← hregistry] at hload
    exact hload
  | build device => exact Rack.extends_add studio.patch.rack device
  | insert name id =>
    have hrack : (studio.perform (.insert name id)).patch.rack = studio.patch.rack :=
      Patch.rack_insert studio.patch name id
    rw [hrack]
    exact Rack.Extends.refl _
  | insertAnonymous id => exact Rack.Extends.refl _
  | _ => cases hbuilding

structure Alongside (held : List Nat) (quiet busy : Studio) : Prop where
  quiet_intact : quiet.Intact
  busy_intact : busy.Intact
  player_eq : busy.player = quiet.player
  controls_eq : busy.controls = quiet.controls
  held_lt : ∀ id ∈ held, id < quiet.patch.rack.nodes.size
  sameOn : Rack.SameOn (quiet.patch.rack.Alive (quiet.outside held)) quiet.patch.rack
    busy.patch.rack

namespace Alongside

theorem refl (h : studio.Intact) (hheld : ∀ id ∈ held, id < studio.patch.rack.nodes.size) :
    Alongside held studio studio :=
  ⟨h, h, rfl, rfl, hheld, fun _ _ => rfl⟩

theorem outside_eq (h : Alongside held quiet busy) : busy.outside held = quiet.outside held := by
  rw [outside, outside, h.player_eq]

theorem lt_of_alive (h : Alongside held quiet busy) {id : Nat}
    (halive : quiet.patch.rack.Alive (quiet.outside held) id) :
    id < quiet.patch.rack.nodes.size := by
  apply h.quiet_intact.wellFormed.lt_of_alive _ halive
  intro root hmem
  rw [outside, List.mem_append, Option.mem_toList, Option.map_eq_some_iff] at hmem
  obtain hmem | ⟨player, hplayer, rfl⟩ := hmem
  · exact h.held_lt root hmem
  · exact h.quiet_intact.player_lt player hplayer

theorem step (h : Alongside held quiet busy) {quiet' busy' : Studio} (hquiet : quiet'.Intact)
    (hbusy : busy'.Intact) (hplayer : busy'.player = quiet'.player)
    (hcontrols : busy'.controls = quiet'.controls)
    (houtside : quiet'.outside held = quiet.outside held)
    (hshape : quiet'.patch.rack.shape = quiet.patch.rack.shape)
    (hsame : Rack.SameOn (quiet.patch.rack.Alive (quiet.outside held)) quiet'.patch.rack
      busy'.patch.rack) : Alongside held quiet' busy' := by
  refine ⟨hquiet, hbusy, hplayer, hcontrols, ?_, ?_⟩
  · rw [Rack.size_nodes_of_shape hshape]
    exact h.held_lt
  · rw [Rack.alive_of_shape hshape, houtside]
    exact hsame

theorem nodes_settle {outside : List Nat} {patch : Patch} (h : patch.rack.WellFormed) {id : Nat}
    (halive : patch.rack.Alive outside id) :
    (patch.settle outside).rack.nodes[id]? = patch.rack.nodes[id]? :=
  h.nodes_release _ _ (halive.mono fun _ => List.mem_append_right _)

theorem settle_busy (h : Alongside held quiet busy) :
    Alongside held quiet (busy.settleHolding held) := by
  -- What is settled is nothing that is held or played.
  apply h.step h.quiet_intact (h.busy_intact.settleHolding held) h.player_eq h.controls_eq rfl rfl
  intro id halive
  have hbusy : busy.patch.rack.Alive (busy.outside held) id := by
    rw [h.outside_eq]
    exact h.sameOn.alive halive
  exact (nodes_settle h.busy_intact.wellFormed hbusy).trans (h.sameOn id halive)

theorem settle_quiet (h : Alongside held quiet busy) :
    Alongside held (quiet.settleHolding held) busy := by
  apply h.step (h.quiet_intact.settleHolding held) h.busy_intact h.player_eq h.controls_eq rfl
    (Rack.shape_release _ _ _)
  intro id halive
  exact (h.sameOn id halive).trans (nodes_settle h.quiet_intact.wellFormed halive).symm

theorem perform_output (h : Alongside held quiet busy) {id : Nat} (hmem : id ∈ held)
    (timestamp frames : Nat) :
    (busy.output id timestamp frames).1 = (quiet.output id timestamp frames).1 ∧
      Alongside held (quiet.perform (.output id timestamp frames))
        (busy.perform (.output id timestamp frames)) := by
  have hid : quiet.patch.rack.Alive (quiet.outside held) id :=
    Rack.Alive.root (List.mem_append_left _ hmem)
  obtain ⟨hfst, hsnd⟩ := h.sameOn.output (quiet.patch.rack.closed_alive (quiet.outside held)) hid
    { timestamp, frames, controls := quiet.controls }
  have hshape : (quiet.perform (.output id timestamp frames)).patch.rack.shape
      = quiet.patch.rack.shape := by
    rw [rack_perform_output, Rack.nodes_output]
    exact Rack.shape_refresh _ _ _
  have hquiet : (quiet.perform (.output id timestamp frames)).Intact :=
    h.quiet_intact.perform trivial
  have hbusy : (busy.perform (.output id timestamp frames)).Intact := h.busy_intact.perform trivial
  constructor
  · simp only [Studio.output, h.controls_eq, hfst]
  · apply h.step hquiet hbusy h.player_eq h.controls_eq rfl hshape
    rw [rack_perform_output, rack_perform_output, h.controls_eq]
    exact hsnd

theorem perform_play_of_none {play : Play} (hplayer : studio.player = none) :
    studio.perform (.play play) = studio := by
  simp only [perform, hplayer]

theorem perform_play_of_some {player : Player} {play : Play}
    (hplayer : studio.player = some player) :
    studio.perform (.play play) = { studio with
      player := some (player.play studio.patch play).2.1
      patch := (player.play studio.patch play).2.2 } := by
  simp only [perform, hplayer]

theorem perform_play (h : Alongside held quiet busy) (play : Play) :
    busy.reply (.play play) = quiet.reply (.play play) ∧
      Alongside held (quiet.perform (.play play)) (busy.perform (.play play)) := by
  cases hplayer : quiet.player with
  | none =>
    have hnone : busy.player = none := by rw [h.player_eq, hplayer]
    rw [perform_play_of_none hplayer, perform_play_of_none hnone]
    exact ⟨by simp only [reply, hplayer, hnone], h⟩
  | some player =>
    have hsome : busy.player = some player := by rw [h.player_eq, hplayer]
    have hid : quiet.patch.rack.Alive (quiet.outside held) player.output := by
      apply Rack.Alive.root
      simp [outside, hplayer]
    have hcarries := Rack.carries_sameOn (quiet.patch.rack.closed_alive (quiet.outside held)) hid
    obtain ⟨hfst, hnext, -, hsame⟩ :
        Player.Alike _ (player.reply quiet.patch play) (player.reply busy.patch play) :=
      Player.alike_reply hcarries ⟨rfl, h.sameOn⟩ (fun _ _ => id) fun _ _ => id
    have hquiet : (quiet.perform (.play play)).Intact := h.quiet_intact.perform trivial
    have hbusy : (busy.perform (.play play)).Intact := h.busy_intact.perform trivial
    rw [Player.snd_reply, Player.snd_reply] at hnext hsame
    constructor
    · simp only [reply, hplayer, hsome, hfst]
    · rw [perform_play_of_some hplayer] at hquiet ⊢
      rw [perform_play_of_some hsome] at hbusy ⊢
      apply h.step hquiet hbusy (congrArg some hnext) h.controls_eq _ _ hsame
      · simp only [outside, hplayer, Option.map_some, Player.output_play]
      · show (player.play quiet.patch play).2.2.rack.shape = quiet.patch.rack.shape
        rw [Player.play_eq_advance, Player.rack_advance, Rack.shape_outputs]

theorem perform_plays (h : Alongside held quiet busy) (hplays : task.Plays held) :
    busy.reply task = quiet.reply task ∧
      Alongside held (quiet.perform task) (busy.perform task) := by
  cases task with
  | output id timestamp frames =>
    obtain ⟨hfst, hnext⟩ := h.perform_output hplays timestamp frames
    exact ⟨congrArg Reply.block hfst, hnext⟩
  | play play => exact h.perform_play play
  | setAxis axis value =>
    have hcontrols : (busy.perform (.setAxis axis value)).controls
        = (quiet.perform (.setAxis axis value)).controls := by
      simp only [perform, setAxis, h.controls_eq]
    have hquiet : (quiet.perform (.setAxis axis value)).Intact := h.quiet_intact.perform trivial
    have hbusy : (busy.perform (.setAxis axis value)).Intact := h.busy_intact.perform trivial
    exact ⟨rfl, h.step hquiet hbusy h.player_eq hcontrols rfl rfl h.sameOn⟩
  | _ => cases hplays

theorem perform_building (h : Alongside held quiet busy) (hbuilding : task.isBuilding = true)
    (hallowed : busy.Allows task) : Alongside held quiet (busy.perform task) := by
  have hextends := extends_perform h.busy_intact hbuilding
  have hplayer : (busy.perform task).player = quiet.player := by
    rw [← h.player_eq]
    cases task <;> first | rfl | cases hbuilding
  have hcontrols : (busy.perform task).controls = quiet.controls := by
    rw [← h.controls_eq]
    cases task <;> first | rfl | cases hbuilding
  apply h.step h.quiet_intact (h.busy_intact.perform hallowed) hplayer hcontrols rfl rfl
  intro id halive
  have hnode := h.sameOn id halive
  rw [Array.getElem?_eq_getElem (h.lt_of_alive halive)] at hnode
  rw [hextends id _ hnode, Array.getElem?_eq_getElem (h.lt_of_alive halive)]

theorem performHolding_plays (h : Alongside held quiet busy) (hplays : task.Plays held) :
    Alongside held (quiet.performHolding held task) (busy.performHolding held task) :=
  (h.perform_plays hplays).2.settle_busy.settle_quiet

theorem performHolding_building (h : Alongside held quiet busy) (hbuilding : task.isBuilding = true)
    (hallowed : busy.Allows task) : Alongside held quiet (busy.performHolding held task) :=
  (h.perform_building hbuilding hallowed).settle_busy

theorem nodes_outside_eq (h : Alongside held quiet busy) :
    (busy.outside held).map (fun id => busy.patch.rack.nodes[id]?)
      = (quiet.outside held).map fun id => quiet.patch.rack.nodes[id]? := by
  rw [h.outside_eq]
  apply List.map_congr_left
  intro id hmem
  exact h.sameOn id (Rack.Alive.root hmem)

end Alongside

theorem isBuilding_of_plays (h : task.Plays held) : task.isBuilding = false := by
  cases task <;> first | rfl | cases h

theorem Alongside.hear_eq (h : Alongside held quiet busy) {tasks : List Task}
    (htasks : ∀ task ∈ tasks, task.isBuilding = true ∨ task.Plays held)
    (hallowed : busy.AllowsHolding held tasks) :
    busy.hear held tasks = quiet.hear held (tasks.filter fun task => !task.isBuilding) ∧
      Alongside held
        (quiet.performAllHolding held (tasks.filter fun task => !task.isBuilding))
        (busy.performAllHolding held tasks) := by
  -- A task that builds moves the busy side only, and every other task moves both.
  induction tasks generalizing quiet busy with
  | nil => exact ⟨rfl, h⟩
  | cons task rest ih =>
    have hrest : ∀ task ∈ rest, task.isBuilding = true ∨ task.Plays held :=
      fun task hmem => htasks task (List.mem_cons_of_mem _ hmem)
    obtain hbuilding | hplays := htasks task (List.mem_cons_self ..)
    · have hnext := h.performHolding_building hbuilding hallowed.1
      obtain ⟨hheard, hlast⟩ := ih hnext hrest hallowed.2
      rw [List.filter_cons_of_neg (by simp [hbuilding]), hear, if_pos hbuilding]
      exact ⟨hheard, hlast⟩
    · have hquiet := isBuilding_of_plays hplays
      have hreply := (h.perform_plays hplays).1
      have hnext := h.performHolding_plays hplays
      obtain ⟨hheard, hlast⟩ := ih hnext hrest hallowed.2
      rw [List.filter_cons_of_pos (by simp [hquiet])]
      refine ⟨?_, hlast⟩
      simp only [hear, hquiet, hreply, hnext.player_eq, hnext.nodes_outside_eq, hheard]

/--
Building never disturbs what plays. If a host holds on to some nodes and lines and texts are read in
between, nodes are built, and names bound, taken ones included, then all that is played comes out as
it does without: blocks, errors, the clock, and the nodes that are held or played.
-/
theorem hear_of_building (h : studio.Reached)
    (hheld : ∀ id ∈ held, id < studio.patch.rack.nodes.size) {tasks : List Task}
    (htasks : ∀ task ∈ tasks, task.isBuilding = true ∨ task.Plays held)
    (hallowed : studio.AllowsHolding held tasks) :
    studio.hear held tasks = studio.hear held (tasks.filter fun task => !task.isBuilding) :=
  ((Alongside.refl h.intact hheld).hear_eq htasks hallowed).1

def tasksWhilePlaying : List Task :=
  [.play (.render {} 2), .parse "Constant output(1)", .output 0 3 2,
    .addLine 1 "Pan output(tone, 1)".toList, .play (.renderPcm {} #[0, 0, 0, 0])]

theorem hear_of_building_paired :
    (pairedStudio.perform .start).Reached ∧
      (pairedStudio.perform .start).hear [0] tasksWhilePlaying
        = (pairedStudio.perform .start).hear [0]
            [.play (.render {} 2), .output 0 3 2, .play (.renderPcm {} #[0, 0, 0, 0])] := by
  have hreached : (pairedStudio.perform .start).Reached := reached_paired.perform _ trivial
  refine ⟨hreached, hear_of_building hreached ?_ ?_ ?_⟩
  · have hrack : (pairedStudio.perform .start).patch.rack = Player.paired.rack :=
      rack_start pairedStudio
    intro id hmem
    rw [List.mem_singleton] at hmem
    rw [hrack, Player.size_paired, hmem]
    exact Nat.zero_lt_succ 2
  · intro task hmem
    simp only [tasksWhilePlaying, List.mem_cons, List.not_mem_nil, or_false] at hmem
    obtain rfl | rfl | rfl | rfl | rfl := hmem
    · exact Or.inr trivial
    · exact Or.inl rfl
    · exact Or.inr (List.mem_singleton_self 0)
    · exact Or.inl rfl
    · exact Or.inr trivial
  · exact ⟨trivial, trivial, trivial, trivial, trivial, trivial⟩

end Studio

end PatchSynth
