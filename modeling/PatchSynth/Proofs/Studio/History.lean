import PatchSynth.Proofs.Patch.Typed
import PatchSynth.Proofs.Rack.History
import PatchSynth.Proofs.Studio.Session

/-!
This module contains the history of a session: what each task comes to on the rack, which is calls
for blocks, the start of a recording, or neither, and the fills that a node goes through from task
to task.
-/

namespace PatchSynth

namespace Rack

inductive Quiet (Built : Device Nat → Rack → Prop) (base : Rack) : Rack → Prop where
  | refl : Quiet Built base base
  | add {rack : Rack} {device : Device Nat} (h : Quiet Built base rack) (hbuilt : Built device rack)
      (hinputs : ∀ input ∈ device.inputs, input < rack.nodes.size) :
      Quiet Built base (rack.add device).2
  | stop {rack : Rack} (h : Quiet Built base rack) (id : Nat) : Quiet Built base (rack.stop id).2

end Rack

namespace Player

variable {player : Player} {patch : Patch}

def pulls (player : Player) (patch : Patch) : List (Controls × Nat) → List (Request × Nat)
  | [] => []
  | (controls, frames) :: rest =>
    ({ timestamp := player.clock, frames, controls }, player.output) ::
      match player.render controls frames patch with
      | (.error _, _, _) => []
      | (.ok _, player, patch) => player.pulls patch rest

theorem rack_advance (calls : List (Controls × Nat)) :
    (player.advance patch calls).2.2.rack = patch.rack.outputs (player.pulls patch calls) := by
  induction calls generalizing player patch with
  | nil => rfl
  | cons call rest ih =>
    obtain ⟨controls, frames⟩ := call
    have hrack : (player.render controls frames patch).2.2.rack
        = (patch.rack.output { timestamp := player.clock, frames, controls } player.output).2 := rfl
    rw [advance, pulls]
    cases hrender : player.render controls frames patch with
    | mk result next =>
      rw [hrender] at hrack
      cases result with
      | error e => exact hrack
      | ok block =>
        have hrest : (next.1.advance next.2 rest).2.2.rack
            = next.2.rack.outputs (next.1.pulls next.2 rest) := ih
        rw [hrack] at hrest
        exact hrest

theorem exists_output_of_advance {calls : List (Controls × Nat)} {e : Error}
    (herror : (player.advance patch calls).1 = .error e) :
    ∃ before request, ((patch.rack.outputs before).output request player.output).1 = .error e := by
  induction calls generalizing player patch with
  | nil => cases herror
  | cons call rest ih =>
    obtain ⟨controls, frames⟩ := call
    let request : Request := { timestamp := player.clock, frames, controls }
    have hresult : (player.render controls frames patch).1
        = (patch.rack.output request player.output).1 := rfl
    have hrack : (player.render controls frames patch).2.2.rack
        = (patch.rack.output request player.output).2 := rfl
    have houtput : (player.render controls frames patch).2.1.output = player.output := rfl
    rw [advance] at herror
    cases hrender : player.render controls frames patch with
    | mk result next =>
      rw [hrender] at herror hresult hrack houtput
      cases result with
      | error found =>
        cases herror
        exact ⟨[], request, hresult.symm⟩
      | ok block =>
        obtain ⟨before, found, hfound⟩ := ih herror
        rw [hrack, houtput] at hfound
        exact ⟨(request, player.output) :: before, found, hfound⟩

end Player

namespace Studio

def pulls (studio : Studio) : Task → List (Request × Nat)
  | .output id timestamp frames => [({ timestamp, frames, controls := studio.controls }, id)]
  | .play play =>
    match studio.player with
    | none => []
    | some player => player.pulls studio.patch play.calls
  | _ => []

def performAll (studio : Studio) (tasks : List Task) : Studio :=
  tasks.foldl perform studio

def AllowsAll (studio : Studio) : List Task → Prop
  | [] => True
  | task :: rest => studio.Allows task ∧ (studio.perform task).AllowsAll rest

def fillings (studio : Studio) (id : Nat) : List Task → List Filling
  | [] => []
  | task :: rest =>
    studio.patch.rack.fillings id (studio.pulls task) ++ (studio.perform task).fillings id rest

variable {studio : Studio}

def fresh (files : Files) : Studio :=
  { patch := { rack := { files } } }

theorem reached_fresh (files : Files) : (fresh files).Reached :=
  Reached.new files

theorem performAll_append (studio : Studio) (tasks more : List Task) :
    studio.performAll (tasks ++ more) = (studio.performAll tasks).performAll more :=
  List.foldl_append

theorem fillings_append (studio : Studio) (id : Nat) (tasks more : List Task) :
    studio.fillings id (tasks ++ more)
      = studio.fillings id tasks ++ (studio.performAll tasks).fillings id more := by
  induction tasks generalizing studio with
  | nil => rfl
  | cons task rest ih =>
    rw [List.cons_append, fillings, fillings, ih, List.append_assoc]
    rfl

theorem allowsAll_append (tasks more : List Task) :
    studio.AllowsAll (tasks ++ more)
      ↔ studio.AllowsAll tasks ∧ (studio.performAll tasks).AllowsAll more := by
  induction tasks generalizing studio with
  | nil => simp [AllowsAll, performAll]
  | cons task rest ih =>
    rw [List.cons_append, AllowsAll, AllowsAll, ih, and_assoc]
    rfl

theorem Reached.performAll (h : studio.Reached) {tasks : List Task}
    (hallowed : studio.AllowsAll tasks) : (studio.performAll tasks).Reached := by
  induction tasks generalizing studio with
  | nil => exact h
  | cons task rest ih => exact ih (h.perform task hallowed.1) hallowed.2

theorem later_performAll (h : studio.Reached) {tasks : List Task}
    (hallowed : studio.AllowsAll tasks) :
    studio.patch.rack.Later (studio.performAll tasks).patch.rack := by
  induction tasks generalizing studio with
  | nil => exact Rack.Later.refl
  | cons task rest ih =>
    exact (h.onward hallowed.1).later.trans (ih (h.perform task hallowed.1) hallowed.2)

def Builds (task : Task) (device : Device Nat) (rack : Rack) : Prop :=
  device.Made rack ∨ task = .build device

theorem grows_quiet {task : Task} (patch : Patch) :
    Patch.Grows fun next =>
      next.Named ∧ Rack.Quiet (Builds task) patch.rack next.rack := by
  refine ⟨fun h => h.1, ?_, ?_, fun _ h => h, fun _ h => h⟩
  · rintro next device ⟨hnamed, hquiet⟩ hmade
    refine ⟨hnamed.build device, hquiet.add (Or.inl hmade) ?_⟩
    intro input hmem
    exact (hmade.inputs input hmem).1
  · rintro next name id ⟨hnamed, hquiet⟩ hid
    refine ⟨hnamed.insert name hid, ?_⟩
    rw [Patch.rack_insert]
    exact hquiet

theorem quiet_parse {task : Task} {patch : Patch} (h : patch.Named) (text : String) :
    Rack.Quiet (Builds task) patch.rack (patch.parse Registry.standard text).2.rack :=
  ((grows_quiet patch).parse ⟨h, Rack.Quiet.refl⟩ text).2

def Asks (studio : Studio) (task : Task) (id : Nat) (path : String) (scaler : Float32) : Prop :=
  task = .recordNode id path scaler ∨
    ∃ name, studio.patch.table.get? name = some id ∧ task = .record name path scaler

theorem Asks.rack_perform {task : Task} {id : Nat} {path : String} {scaler : Float32}
    (h : studio.Asks task id path scaler) :
    (studio.perform task).patch.rack = (studio.patch.rack.record id path scaler).2 := by
  obtain rfl | ⟨name, hname, rfl⟩ := h
  · exact Patch.rack_recordNode _ id path scaler
  · simp only [perform, Patch.record, hname]
    exact Patch.rack_recordNode _ id path scaler

theorem rack_start (studio : Studio) : studio.start.2.patch.rack = studio.patch.rack := by
  have hnew := Player.rack_new studio.patch
  unfold start
  split
  next hresult =>
    rw [hresult] at hnew
    exact hnew
  next hresult =>
    rw [hresult] at hnew
    dsimp only at hnew ⊢
    split <;> exact hnew

theorem perform_cases (h : studio.Reached) {task : Task} (hallowed : studio.Allows task) :
    (studio.perform task).patch.rack = studio.patch.rack.outputs (studio.pulls task) ∨
    (studio.pulls task = [] ∧ ∃ id path scaler, studio.Asks task id path scaler) ∨
    (studio.pulls task = [] ∧
      Rack.Quiet (Builds task) studio.patch.rack (studio.perform task).patch.rack) := by
  have hregistry := h.registry_eq
  have hnamed := h.named
  cases task with
  | output id timestamp frames => exact Or.inl rfl
  | play play =>
    apply Or.inl
    cases hplayer : studio.player with
    | none =>
      simp only [perform, pulls, hplayer]
      rfl
    | some player =>
      simp only [perform, pulls, hplayer]
      rw [Player.play_eq_advance]
      exact Player.rack_advance play.calls
  | insert name id => exact Or.inl (Patch.rack_insert _ _ _)
  | insertAnonymous id => exact Or.inl rfl
  | setAxis axis value => exact Or.inl rfl
  | start => exact Or.inl studio.rack_start
  | record name path scaler =>
    cases hname : studio.patch.table.get? name with
    | none =>
      apply Or.inl
      simp only [perform, Patch.record, hname]
      rfl
    | some id =>
      exact Or.inr (Or.inl ⟨rfl, id, path, scaler, Or.inr ⟨name, hname, rfl⟩⟩)
  | recordNode id path scaler =>
    exact Or.inr (Or.inl ⟨rfl, id, path, scaler, Or.inl rfl⟩)
  | addLine lineNumber line =>
    refine Or.inr (Or.inr ⟨rfl, ?_⟩)
    unfold perform
    dsimp only
    rw [hregistry]
    have hparser : Patch.Named ({ patch := studio.patch, lineNumber } : Parser).patch ∧
        Rack.Quiet (Builds (.addLine lineNumber line)) studio.patch.rack
          ({ patch := studio.patch, lineNumber } : Parser).patch.rack :=
      ⟨hnamed, Rack.Quiet.refl⟩
    exact ((grows_quiet studio.patch).addLine hparser line).2
  | parse text =>
    refine Or.inr (Or.inr ⟨rfl, ?_⟩)
    have hparse : Rack.Quiet (Builds (.parse text)) studio.patch.rack _ :=
      quiet_parse hnamed text
    rw [← hregistry] at hparse
    exact hparse
  | load path =>
    refine Or.inr (Or.inr ⟨rfl, ?_⟩)
    have hload : Rack.Quiet (Builds (.load path)) studio.patch.rack
        (studio.patch.load Registry.standard path).2.rack := by
      unfold Patch.load
      split
      next => exact Rack.Quiet.refl
      next text _ => exact quiet_parse hnamed text
    rw [← hregistry] at hload
    exact hload
  | build device =>
    exact Or.inr (Or.inr ⟨rfl, Rack.Quiet.refl.add (Or.inr rfl) hallowed⟩)
  | stop id => exact Or.inr (Or.inr ⟨rfl, Rack.Quiet.refl.stop id⟩)
  | stopAll =>
    exact Or.inr (Or.inr ⟨rfl, Rack.keep_forAll_stop (fun id hquiet => hquiet.stop id)
      Rack.Quiet.refl _⟩)
  | settle =>
    exact Or.inr (Or.inr ⟨rfl, Rack.keep_release (fun id hquiet => hquiet.stop id)
      Rack.Quiet.refl _ _⟩)

theorem keep_perform {P : Rack → Prop}
    (hshape : ∀ {rack next : Rack}, next.shape = rack.shape → P rack → P next)
    (hadd : ∀ {rack : Rack} {device : Device Nat}, P rack → device.Made rack →
      P (rack.add device).2)
    (h : studio.Reached) {task : Task} (hallowed : studio.Allows task)
    (hparsed : ∀ device, task ≠ .build device) (hrack : P studio.patch.rack) :
    P (studio.perform task).patch.rack := by
  obtain heq | ⟨-, id, path, scaler, hasks⟩ | ⟨-, hquiet⟩ := perform_cases h hallowed
  · rw [heq]
    exact hshape (Rack.shape_outputs _ _) hrack
  · rw [hasks.rack_perform]
    exact hshape (Rack.shape_snd_record _ id path scaler) hrack
  · generalize (studio.perform task).patch.rack = next at hquiet ⊢
    induction hquiet with
    | refl => exact hrack
    | add _ hbuilt _ ih =>
      obtain hdevice | hbuild := hbuilt
      · exact hadd ih hdevice
      · exact absurd hbuild (hparsed _)
    | stop _ id ih => exact hshape (Rack.shape_stop _ id) ih

theorem keep_performAll {P : Rack → Prop}
    (hshape : ∀ {rack next : Rack}, next.shape = rack.shape → P rack → P next)
    (hadd : ∀ {rack : Rack} {device : Device Nat}, P rack → device.Made rack →
      P (rack.add device).2)
    (h : studio.Reached) {tasks : List Task} (hallowed : studio.AllowsAll tasks)
    (hparsed : ∀ device, .build device ∉ tasks) (hrack : P studio.patch.rack) :
    P (studio.performAll tasks).patch.rack := by
  induction tasks generalizing studio with
  | nil => exact hrack
  | cons task rest ih =>
    have htask : ∀ device, task ≠ .build device := by
      rintro device rfl
      exact hparsed device List.mem_cons_self
    have hrest : ∀ device, .build device ∉ rest := fun device hbuild =>
      hparsed device (List.mem_cons_of_mem _ hbuild)
    have hnext := keep_perform hshape hadd h hallowed.1 htask hrack
    exact ih (h.perform task hallowed.1) hallowed.2 hrest hnext

theorem wired_perform (h : studio.Reached) {task : Task} (hallowed : studio.Allows task)
    (hparsed : ∀ device, task ≠ .build device) (hwired : studio.patch.rack.Wired) :
    (studio.perform task).patch.rack.Wired :=
  keep_perform (fun hshape hrack => hrack.of_shape hshape)
    (fun hrack hmade => hrack.add hmade.toWired) h hallowed hparsed hwired

theorem wired_performAll (h : studio.Reached) {tasks : List Task}
    (hallowed : studio.AllowsAll tasks) (hparsed : ∀ device, .build device ∉ tasks)
    (hwired : studio.patch.rack.Wired) :
    (studio.performAll tasks).patch.rack.Wired :=
  keep_performAll (fun hshape hrack => hrack.of_shape hshape)
    (fun hrack hmade => hrack.add hmade.toWired) h hallowed hparsed hwired

theorem lt_of_mem_fillings (h : studio.Reached) {tasks : List Task}
    (hallowed : studio.AllowsAll tasks) {id : Nat} {filling : Filling}
    (hmem : filling ∈ studio.fillings id tasks) {node : Node} {last : Nat}
    (hnode : studio.patch.rack.nodes[id]? = some node) (hlast : node.last = some last) :
    last < filling.request.timestamp := by
  induction tasks generalizing studio node last with
  | nil => cases hmem
  | cons task rest ih =>
    rw [fillings, List.mem_append] at hmem
    obtain hmem | hmem := hmem
    · exact Rack.lt_of_mem_fillings h.reachable.wellFormed hmem hnode hlast
    · obtain ⟨now, newer, hnow, hnewer, hle⟩ :=
        (h.onward hallowed.1).later.last_le hnode hlast
      have hlt := ih (h.perform task hallowed.1) hallowed.2 hmem hnow hnewer
      omega

theorem pairwise_fillings (h : studio.Reached) {tasks : List Task}
    (hallowed : studio.AllowsAll tasks) (id : Nat) :
    (studio.fillings id tasks).Pairwise fun filling later =>
      filling.request.timestamp < later.request.timestamp := by
  induction tasks generalizing studio with
  | nil => exact List.Pairwise.nil
  | cons task rest ih =>
    have hrack := h.reachable.wellFormed
    have hnext := h.perform task hallowed.1
    rw [fillings, List.pairwise_append]
    refine ⟨Rack.pairwise_fillings hrack id _, ih hnext hallowed.2, ?_⟩
    intro filling hfilling later hlater
    -- The block that the first tasks leave behind lies between the two fills.
    obtain heq | ⟨hnone, -⟩ | ⟨hnone, -⟩ := perform_cases h hallowed.1
    · obtain ⟨node, last, hnode, hlast, hle⟩ := Rack.le_of_mem_fillings hrack hfilling
      rw [← heq] at hnode
      have hlt := lt_of_mem_fillings hnext hallowed.2 hlater hnode hlast
      omega
    · rw [hnone] at hfilling
      cases hfilling
    · rw [hnone] at hfilling
      cases hfilling

theorem fillings_parse_output (studio : Studio) (text : String) (id root timestamp frames : Nat) :
    studio.fillings id [.parse text, .output root timestamp frames]
      = ((studio.perform (.parse text)).patch.rack.fillingOf
          { timestamp, frames, controls := (studio.perform (.parse text)).controls } root
          id).toList := by
  have hnone : studio.patch.rack.fillings id [] = [] := by
    rw [Rack.fillings]
  have hpulls : studio.pulls (.parse text) = [] := rfl
  rw [fillings, fillings, fillings, hpulls, hnone, pulls, Rack.fillings, Rack.fillings,
    List.nil_append, List.append_nil, List.append_nil]

end Studio
end PatchSynth
