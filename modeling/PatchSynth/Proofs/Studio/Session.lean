import PatchSynth.Studio
import PatchSynth.Proofs.Patch.Parse
import PatchSynth.Proofs.Patch.Record
import PatchSynth.Proofs.Player.Filled
import PatchSynth.Proofs.Rack.Later
import PatchSynth.Proofs.Rack.Loan

/-!
This module contains sessions with a studio of standard types: lines and texts are read, nodes are
built and named, controls are moved, recordings are started and stopped, and nodes are played, in
any order and with any outcome. Whatever is done, the rack comes about by the operations on racks,
and names lead to nodes that stand.
-/

namespace PatchSynth

namespace Patch

variable {patch next : Patch}

structure Onward (patch next : Patch) : Prop where
  later : patch.rack.Later next.rack
  named : next.Named

theorem Onward.trans {last : Patch} (h : patch.Onward next) (hlast : next.Onward last) :
    patch.Onward last :=
  ⟨h.later.trans hlast.later, hlast.named⟩

namespace Named

theorem onward_of_entries_eq (h : patch.Named) (hlater : patch.rack.Later next.rack)
    (hentries : next.table.entries = patch.table.entries) : patch.Onward next := by
  refine ⟨hlater, ?_⟩
  intro name id hid
  rw [Table.get?_eq_lookup, hentries, ← Table.get?_eq_lookup] at hid
  exact Nat.lt_of_lt_of_le (h name id hid) (Rack.size_le_of_later hlater)

theorem onward_refl (h : patch.Named) : patch.Onward patch :=
  ⟨Rack.Later.refl, h⟩

theorem onward_build (h : patch.Named) {device : Device Nat}
    (hinputs : ∀ input ∈ device.inputs, input < patch.rack.nodes.size) :
    patch.Onward (patch.build device).2 :=
  ⟨Rack.Later.refl.add hinputs, h.build device⟩

theorem onward_insert (h : patch.Named) (name : String) {id : Nat}
    (hid : id < patch.rack.nodes.size) : patch.Onward (patch.insert name id) := by
  refine ⟨?_, h.insert name hid⟩
  rw [rack_insert]
  exact Rack.Later.refl

end Named

theorem grows_onward (patch : Patch) : Grows patch.Onward := by
  refine ⟨fun h => h.named, ?_, ?_, ?_, ?_⟩
  · intro next device h hmade
    apply h.trans (h.named.onward_build _)
    intro input hmem
    exact (hmade.inputs input hmem).1
  · intro next name id h hid
    exact h.trans (h.named.onward_insert name hid)
  · intro next id h
    exact h.trans (h.named.onward_of_entries_eq Rack.Later.refl rfl)
  · intro next event h
    exact h.trans (h.named.onward_of_entries_eq Rack.Later.refl rfl)

namespace Named

theorem onward_parse (h : patch.Named) (text : String) :
    patch.Onward (patch.parse Registry.standard text).2 :=
  patch.grows_onward.parse h.onward_refl text

theorem onward_load (h : patch.Named) (path : String) :
    patch.Onward (patch.load Registry.standard path).2 := by
  unfold Patch.load
  split
  next => exact h.onward_refl
  next text _ => exact h.onward_parse text

theorem onward_recordNode (h : patch.Named) (id : Nat) (path : String) (scaler : Float32) :
    patch.Onward (patch.recordNode id path scaler).2 := by
  apply h.onward_of_entries_eq
  · rw [rack_recordNode]
    exact Rack.Later.refl.record id path scaler
  · rw [table_recordNode]

theorem onward_record (h : patch.Named) (name path : String) (scaler : Float32) :
    patch.Onward (patch.record name path scaler).2 := by
  unfold Patch.record
  split
  next => exact h.onward_recordNode _ path scaler
  next => exact h.onward_refl

theorem onward_stopAll (h : patch.Named) : patch.Onward patch.stopAll.2 :=
  h.onward_of_entries_eq (Rack.later_forAll_stop patch.rack _) rfl

theorem onward_settle (h : patch.Named) (outside : List Nat) :
    patch.Onward (patch.settle outside) :=
  h.onward_of_entries_eq (Rack.later_release patch.rack _ _) rfl

theorem onward_render (h : patch.Named) (player : Player) (controls : Controls) (frames : Nat) :
    patch.Onward (player.render controls frames patch).2.2 :=
  h.onward_of_entries_eq (Rack.Later.refl.output _ _) rfl

theorem onward_advance (h : patch.Named) (player : Player) (calls : List (Controls × Nat)) :
    patch.Onward (player.advance patch calls).2.2 := by
  induction calls generalizing player patch with
  | nil => exact h.onward_refl
  | cons call rest ih =>
    obtain ⟨controls, frames⟩ := call
    have hrender := h.onward_render player controls frames
    rw [Player.advance]
    split
    next hresult =>
      rw [hresult] at hrender
      exact hrender
    next player next hresult =>
      rw [hresult] at hrender
      exact hrender.trans (ih hrender.named player)

end Named
end Patch

namespace Studio

inductive Task where
  | addLine (lineNumber : Nat) (line : List Char)
  | parse (text : String)
  | load (path : String)
  | build (device : Device Nat)
  | insert (name : String) (id : Nat)
  | insertAnonymous (id : Nat)
  | setAxis (axis : Int) (value : Float32)
  | record (name path : String) (scaler : Float32)
  | recordNode (id : Nat) (path : String) (scaler : Float32)
  | stop (id : Nat)
  | stopAll
  | output (id timestamp frames : Nat)
  | start
  | play (play : Play)
  | settle

def perform (studio : Studio) : Task → Studio
  | .addLine lineNumber line =>
    let parser : Parser := { patch := studio.patch, lineNumber }
    { studio with patch := (parser.addLine studio.registry line).2.patch }
  | .parse text => (studio.parse text).2
  | .load path => (studio.load path).2
  | .build device => { studio with patch := (studio.patch.build device).2 }
  | .insert name id => { studio with patch := studio.patch.insert name id }
  | .insertAnonymous id => { studio with patch := studio.patch.insertAnonymous id }
  | .setAxis axis value => studio.setAxis axis value
  | .record name path scaler => { studio with patch := (studio.patch.record name path scaler).2 }
  | .recordNode id path scaler =>
    { studio with patch := (studio.patch.recordNode id path scaler).2 }
  | .stop id => { studio with patch := { studio.patch with rack := (studio.patch.rack.stop id).2 } }
  | .stopAll => { studio with patch := studio.patch.stopAll.2 }
  | .output id timestamp frames => (studio.output id timestamp frames).2
  | .start => studio.start.2
  | .play play =>
    match studio.player with
    | none => studio
    | some player =>
      let (_, player, patch) := player.play studio.patch play
      { studio with player := some player, patch }
  | .settle => studio.settle

def Allows (studio : Studio) : Task → Prop
  | .build device => ∀ input ∈ device.inputs, input < studio.patch.rack.nodes.size
  | .insert _ id => id < studio.patch.rack.nodes.size
  | .insertAnonymous id => id < studio.patch.rack.nodes.size
  | _ => True

/--
The studios that come about in a session that starts with some files.
-/
inductive Reached : Studio → Prop where
  | new (files : Files) : Reached { patch := { rack := { files } } }
  | perform {studio : Studio} (h : Reached studio) (task : Task) (hallowed : studio.Allows task) :
      Reached (studio.perform task)

variable {studio : Studio}

theorem registry_perform (studio : Studio) (task : Task) :
    (studio.perform task).registry = studio.registry := by
  cases task with
  | start =>
    unfold perform start
    dsimp only
    split <;> rfl
  | play play =>
    unfold perform
    dsimp only
    split <;> rfl
  | _ => rfl

theorem onward_start (h : studio.patch.Named) : studio.patch.Onward studio.start.2.patch := by
  -- To drop the node of an old player changes neither the rack nor the names.
  have hsame : ∀ next : Patch, next.rack = (Player.new studio.patch).2.rack →
      next.table = (Player.new studio.patch).2.table → studio.patch.Onward next := by
    intro next hrack htable
    rw [Player.rack_new] at hrack
    rw [Player.table_new] at htable
    refine h.onward_of_entries_eq ?_ (congrArg Table.entries htable)
    rw [hrack]
    exact Rack.Later.refl
  unfold start
  split
  next patch hresult =>
    rw [hresult] at hsame
    exact hsame _ rfl rfl
  next player patch hresult =>
    rw [hresult] at hsame
    dsimp only
    split
    next => exact hsame _ rfl rfl
    next => exact hsame _ rfl rfl

theorem onward_perform (hregistry : studio.registry = Registry.standard)
    (h : studio.patch.Named) {task : Task} (hallowed : studio.Allows task) :
    studio.patch.Onward (studio.perform task).patch := by
  cases task with
  | addLine lineNumber line =>
    unfold perform
    dsimp only
    rw [hregistry]
    have hparser : studio.patch.Onward ({ patch := studio.patch, lineNumber } : Parser).patch :=
      h.onward_refl
    exact studio.patch.grows_onward.addLine hparser line
  | parse text =>
    have hparse := h.onward_parse text
    rw [← hregistry] at hparse
    exact hparse
  | load path =>
    have hload := h.onward_load path
    rw [← hregistry] at hload
    exact hload
  | build device => exact h.onward_build hallowed
  | insert name id => exact h.onward_insert name hallowed
  | insertAnonymous id => exact h.onward_of_entries_eq Rack.Later.refl rfl
  | setAxis axis value => exact h.onward_refl
  | record name path scaler => exact h.onward_record name path scaler
  | recordNode id path scaler => exact h.onward_recordNode id path scaler
  | stop id => exact h.onward_of_entries_eq (Rack.Later.refl.stop id) rfl
  | stopAll => exact h.onward_stopAll
  | output id timestamp frames => exact h.onward_of_entries_eq (Rack.Later.refl.output _ id) rfl
  | start => exact onward_start h
  | play play =>
    unfold perform
    dsimp only
    split
    next => exact h.onward_refl
    next player _ =>
      rw [Player.play_eq_advance]
      exact h.onward_advance player play.calls
  | settle => exact h.onward_settle _

namespace Reached

theorem registry_eq (h : studio.Reached) : studio.registry = Registry.standard := by
  induction h with
  | new files => rfl
  | perform _ task _ ih => rw [registry_perform, ih]

theorem named (h : studio.Reached) : studio.patch.Named := by
  induction h with
  | new files =>
    intro name id hid
    cases hid
  | perform h task hallowed ih => exact (onward_perform h.registry_eq ih hallowed).named

theorem onward (h : studio.Reached) {task : Task} (hallowed : studio.Allows task) :
    studio.patch.Onward (studio.perform task).patch :=
  onward_perform h.registry_eq h.named hallowed

theorem reachable (h : studio.Reached) : studio.patch.rack.Reachable := by
  induction h with
  | new files => exact Rack.Reachable.empty files
  | perform h task hallowed ih =>
    obtain ⟨files, hbefore⟩ := ih
    exact ⟨files, hbefore.trans (h.onward hallowed).later⟩

end Reached

/--
No node has a newer block than a node that it reads, directly or through others, and nothing that a
studio is asked for takes a block back.
-/
theorem clocks_of_reached {studio : Studio} (h : studio.Reached) :
    (∀ {id other last : Nat} {node : Node}, studio.patch.rack.Reaches id other →
      studio.patch.rack.nodes[id]? = some node → node.last = some last →
        ∃ read newer, studio.patch.rack.nodes[other]? = some read ∧ read.last = some newer ∧
          last ≤ newer) ∧
    (∀ {task : Task} {id last : Nat} {node : Node}, studio.Allows task →
      studio.patch.rack.nodes[id]? = some node → node.last = some last →
        ∃ now newer, (studio.perform task).patch.rack.nodes[id]? = some now ∧
          now.last = some newer ∧ last ≤ newer) ∧
    ∀ {id other timestamp : Nat} {node : Node}, studio.patch.rack.Reaches id other →
      studio.patch.rack.nodes[id]? = some node → node.isStale timestamp = false →
        ∃ read, studio.patch.rack.nodes[other]? = some read ∧ read.isStale timestamp = false := by
  have hrack := h.reachable.wellFormed
  refine ⟨?_, ?_, ?_⟩
  · intro id other last node hreaches hnode hlast
    exact hrack.last_of_reaches hreaches hnode hlast
  · intro task id last node hallowed hnode hlast
    exact (h.onward hallowed).later.last_le hnode hlast
  · intro id other timestamp node hreaches hnode hfresh
    exact hrack.isCurrent_of_reaches ⟨node, hnode, hfresh⟩ hreaches

theorem rack_perform_output (studio : Studio) (id timestamp frames : Nat) :
    (studio.perform (.output id timestamp frames)).patch.rack
      = (studio.patch.rack.output { timestamp, frames, controls := studio.controls } id).2 := rfl

theorem controls_perform_output (studio : Studio) (id timestamp frames : Nat) :
    (studio.perform (.output id timestamp frames)).controls = studio.controls := rfl

def pairedStudio : Studio :=
  perform {} (.parse Player.pairedText)

theorem reached_paired : pairedStudio.Reached := by
  have hnew : Reached {} := Reached.new {}
  exact hnew.perform _ trivial

def pairedRequest : Request :=
  { timestamp := 5, frames := 2, controls := {} }

theorem refresh_paired : (Player.paired.rack.refresh pairedRequest 2).1 = .ok () := by
  have hrack := Player.built_paired.reachable.wellFormed
  have hplayed : Player.paired.rack.PlayedTo pairedRequest.controls 2 0 pairedRequest.timestamp :=
    Rack.PlayedTo.of_unplayed hrack Player.built_paired.wellTyped Player.built_paired.unplayed _ _
  rw [hplayed.refresh_ok_iff (by decide) (Player.built_paired.hasRoom _) (by decide)]
  intro id _
  exact Player.clean_paired hrack rfl _ _ id

theorem rack_paired : (pairedStudio.perform (.output 2 5 2)).patch.rack
    = (Player.paired.rack.refresh pairedRequest 2).2 := by
  have hpatch : pairedStudio.patch = Player.paired := rfl
  have hcontrols : pairedStudio.controls = {} := rfl
  have hrequest : { pairedRequest with frames := min pairedRequest.frames maxFrames }
      = pairedRequest := rfl
  rw [rack_perform_output, hpatch, hcontrols, ← pairedRequest, Rack.nodes_output, hrequest]

theorem last_paired :
    ∃ node, (pairedStudio.perform (.output 2 5 2)).patch.rack.nodes[2]? = some node ∧
      node.last = some 5 := by
  have hrack := Player.built_paired.reachable.wellFormed
  obtain ⟨pan, hpan, -, -⟩ := Rack.exists_of_getElem?_shape Player.output_paired
  have hstale : pan.isStale pairedRequest.timestamp = true := by
    simp [Node.isStale, (Player.built_paired.unplayed 2 pan hpan).1]
  obtain ⟨node, hnode, hlast, -⟩ :=
    hrack.node_refresh (by decide) refresh_paired (Rack.Reaches.refl _ 2) hpan hstale
  exact ⟨node, by rw [rack_paired, hnode], hlast⟩

theorem reaches_paired : (pairedStudio.perform (.output 2 5 2)).patch.rack.Reaches 2 0 := by
  obtain ⟨pan, hpan, hdevice, -⟩ := Rack.exists_of_getElem?_shape Player.output_paired
  rw [rack_paired, Rack.reaches_of_shape (Rack.shape_refresh _ _ _)]
  apply Relation.ReflTransGen.single
  exact ⟨pan, hpan, by simp [hdevice, Device.reads, Device.inputs]⟩

theorem clocks_of_reached_paired :
    (pairedStudio.perform (.output 2 5 2)).Reached ∧
      (∃ tone newer, (pairedStudio.perform (.output 2 5 2)).patch.rack.nodes[0]? = some tone ∧
        tone.last = some newer ∧ 5 ≤ newer) ∧
      ∃ pan newer, ((pairedStudio.perform (.output 2 5 2)).perform
          (.output 2 3 4)).patch.rack.nodes[2]? = some pan ∧ pan.last = some newer ∧
        5 ≤ newer := by
  have hreached : (pairedStudio.perform (.output 2 5 2)).Reached :=
    reached_paired.perform _ trivial
  obtain ⟨hclocks, hkept, -⟩ := clocks_of_reached hreached
  obtain ⟨node, hnode, hlast⟩ := last_paired
  exact ⟨hreached, hclocks reaches_paired hnode hlast, hkept trivial hnode hlast⟩

theorem output_eq (studio : Studio) (id timestamp frames : Nat) {request : Request}
    (hrequest :
      request = { timestamp, frames := min frames maxFrames, controls := studio.controls }) :
    studio.output id timestamp frames
      = ((studio.patch.rack.refresh request id).1.map fun _ =>
            (studio.patch.rack.refresh request id).2.blockOf id request.frames,
          { studio with
            patch := { studio.patch with rack := (studio.patch.rack.refresh request id).2 } }) := by
  subst hrequest
  have hfst := Rack.fst_output { timestamp, frames, controls := studio.controls } id
    studio.patch.rack
  have hsnd := Rack.nodes_output { timestamp, frames, controls := studio.controls } id
    studio.patch.rack
  unfold output
  dsimp only at hfst hsnd ⊢
  rw [hfst, hsnd]

/--
Inputs are nodes that were built before, whatever became of their names since, and nodes stay where
they were built and wired as they were. So every pull ends, no call of it finds a node lent out that
it needs, and it comes to what the studio hands out.
-/
theorem pulls_of_reached {studio : Studio} (h : studio.Reached) :
    (∀ {id : Nat} {node : Node}, studio.patch.rack.nodes[id]? = some node →
      ∀ input ∈ node.device.inputs, input < id) ∧
    (∀ {task : Task} {id : Nat} {node : Node}, studio.Allows task →
      studio.patch.rack.nodes[id]? = some node →
        ∃ now, (studio.perform task).patch.rack.nodes[id]? = some now ∧
          now.device = node.device) ∧
    ∀ {id timestamp frames : Nat} {request : Request},
      request = { timestamp, frames := min frames maxFrames, controls := studio.controls } →
        ∃ result next,
          (∀ outcome, Rack.Pull request {} id studio.patch.rack outcome ↔
            outcome = .done result next) ∧
          studio.output id timestamp frames
            = (result.map fun _ => next.blockOf id request.frames,
                { studio with patch := { studio.patch with rack := next } }) := by
  have hrack := h.reachable.wellFormed
  refine ⟨hrack.inputs_lt, ?_, ?_⟩
  · intro task id node hallowed hnode
    exact (h.onward hallowed).later.device_eq hnode
  · intro id timestamp frames request hrequest
    have hframes : request.frames ≤ maxFrames := by
      rw [hrequest]
      exact Nat.min_le_right _ _
    exact ⟨_, _, fun outcome => Rack.pull_iff hrack hframes,
      studio.output_eq id timestamp frames hrequest⟩

def rebound : Studio :=
  perform {} (.parse "Input x(0)\nAdd x(x, 1)\nAdd y(x, x)")

theorem reached_rebound : rebound.Reached := by
  have hnew : Reached {} := Reached.new {}
  exact hnew.perform _ trivial

theorem pulls_of_reached_rebound :
    rebound.Reached ∧ rebound.patch.table.get? "x" = some 2 ∧
      (∃ node, rebound.patch.rack.nodes[2]? = some node ∧ node.device = .add 0 1) ∧
      ∃ result next, ∀ outcome,
        Rack.Pull { timestamp := 7, frames := 2, controls := {} } {} 3 rebound.patch.rack outcome ↔
          outcome = .done result next := by
  obtain ⟨-, -, hpulls⟩ := pulls_of_reached reached_rebound
  have hrequest : ({ timestamp := 7, frames := 2, controls := {} } : Request)
      = { timestamp := 7, frames := min 2 maxFrames, controls := rebound.controls } := rfl
  obtain ⟨result, next, hpull, -⟩ := hpulls hrequest
  exact ⟨reached_rebound, rfl, ⟨_, rfl, rfl⟩, result, next, hpull⟩

end Studio
end PatchSynth
