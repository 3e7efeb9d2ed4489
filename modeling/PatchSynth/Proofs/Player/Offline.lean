import PatchSynth.Proofs.Player.Sharing
import PatchSynth.Proofs.Rack.Unrecorded
import PatchSynth.Proofs.Studio.History

/-!
This module contains how often a node is filled while blocks are played in order, up to the first
failure: once for every block that comes out, and perhaps once more for the one that fails, if it is
played at all. That nodes are recorded makes no difference as long as the files have room.
-/

namespace PatchSynth

theorem Node.twin_of_unrecorded {node twin : Node} (h : twin.unrecorded = node.unrecorded) :
    node.Twin (fun id => id) twin := by
  simp only [unrecorded, Node.mk.injEq] at h
  obtain ⟨hdevice, hrange, hbuffer, hphase, hlast, -⟩ := h
  refine ⟨?_, hrange.symm, hbuffer.symm, hphase.symm, hlast.symm⟩
  rw [hdevice]
  exact node.device.map_id

namespace Rack

variable {rack : Rack} {id : Nat}

theorem fillingOf_of_not_reaches {request : Request} {root : Nat} (h : ¬ rack.Reaches root id) :
    rack.fillingOf request root id = none := by
  have hkept : (rack.output request root).2.nodes[id]? = rack.nodes[id]? := by
    rw [nodes_output]
    exact nodes_refresh_of_not_reaches h
  unfold fillingOf
  dsimp only
  rw [hkept]
  cases rack.nodes[id]? with
  | none => rfl
  | some node => exact if_pos rfl

theorem fillings_of_not_reaches {pulls : List (Request × Nat)}
    (h : ∀ pull ∈ pulls, ¬ rack.Reaches pull.2 id) : rack.fillings id pulls = [] := by
  induction pulls generalizing rack with
  | nil => rfl
  | cons pull rest ih =>
    obtain ⟨hfirst, hrest⟩ := List.forall_mem_cons.1 h
    rw [fillings, fillingOf_of_not_reaches hfirst, Option.toList_none, List.nil_append]
    apply ih
    rw [reaches_of_shape (shape_output rack pull.1 pull.2)]
    exact hrest

theorem mirrors_of_unrecorded {recorded : Rack} {root : Nat} (hrack : rack.WellFormed)
    (hroot : root < rack.nodes.size) (hsame : recorded.unrecorded = rack.unrecorded)
    (hnone : ∀ (id : Nat) (node : Node), rack.nodes[id]? = some node → node.recorder = none) :
    Mirrors (fun id => id) root rack recorded := by
  have htwin : ∀ {id : Nat} {node : Node}, rack.nodes[id]? = some node →
      ∃ twin, recorded.nodes[id]? = some twin ∧ twin.unrecorded = node.unrecorded := by
    intro id node hnode
    have heq := congrArg (fun rack => rack.nodes[id]?) hsame
    simp only [getElem?_unrecorded, hnode, Option.map_some, Option.map_eq_some_iff] at heq
    exact heq
  refine ⟨?_, ?_⟩
  · intro id node hnode
    obtain ⟨twin, hfound, heq⟩ := htwin hnode
    obtain ⟨hdevice, hrange, -⟩ := Node.twin_of_unrecorded heq
    exact ⟨twin, hfound, hdevice, hrange⟩
  · intro id hreaches
    have hle := hrack.le_of_reaches hreaches
    have hnode := Array.getElem?_eq_getElem (show id < rack.nodes.size by omega)
    obtain ⟨twin, hfound, heq⟩ := htwin hnode
    exact ⟨_, twin, hnode, hfound, Node.twin_of_unrecorded heq, hnone id _ hnode⟩

end Rack

def Tally : List (Except Error Block) → Nat → Prop
  | [], count => count = 0
  | .ok _ :: rest, count => ∃ later, count = later + 1 ∧ Tally rest later
  | .error _ :: _, count => count = 0 ∨ count = 1

namespace Tally

variable {results : List (Except Error Block)} {count : Nat}

theorem untilFailure_iff : Tally (untilFailure results) count ↔ Tally results count := by
  induction results generalizing count with
  | nil => rfl
  | cons result rest ih =>
    cases result with
    | error e => rfl
    | ok block => simp only [untilFailure, Tally, ih]

theorem of_ok {blocks : List Block} (h : Tally (blocks.map .ok) count) : count = blocks.length := by
  induction blocks generalizing count with
  | nil => exact h
  | cons block rest ih =>
    obtain ⟨later, rfl, hlater⟩ := h
    rw [List.length_cons, ih hlater]

theorem of_error {blocks : List Block} {e : Error} {rest : List (Except Error Block)}
    (h : Tally (blocks.map .ok ++ .error e :: rest) count) :
    count = blocks.length ∨ count = blocks.length + 1 := by
  induction blocks generalizing count with
  | nil => exact h
  | cons block more ih =>
    obtain ⟨later, rfl, hlater⟩ := h
    have := ih hlater
    rw [List.length_cons]
    omega

theorem le_length (h : Tally results count) : count ≤ results.length := by
  induction results generalizing count with
  | nil => exact Nat.le_of_eq h
  | cons result rest ih =>
    rw [List.length_cons]
    cases result with
    | error e =>
      have hcount : count = 0 ∨ count = 1 := h
      omega
    | ok block =>
      obtain ⟨later, rfl, hlater⟩ := h
      have := ih hlater
      omega

end Tally

namespace Player

variable {player : Player} {patch : Patch} {calls : List (Controls × Nat)} {id frames : Nat}
  {node : Node}

theorem length_renders (player : Player) (calls : List (Controls × Nat)) (patch : Patch) :
    (player.renders calls patch).1.length = calls.length := by
  induction calls generalizing player patch with
  | nil => rfl
  | cons call rest ih =>
    simp only [renders, List.length_cons]
    rw [ih]

theorem renders_of_unrecorded {recorded : Patch} (hrack : patch.rack.WellFormed)
    (hrecorded : recorded.rack.WellFormed)
    (hroot : player.output < patch.rack.nodes.size)
    (hsame : recorded.rack.unrecorded = patch.rack.unrecorded)
    (hnone : ∀ (id : Nat) (node : Node), patch.rack.nodes[id]? = some node → node.recorder = none)
    (hroom : recorded.rack.HasRoom (framesOf calls)) :
    untilFailure (player.renders calls recorded).1 = untilFailure (player.renders calls patch).1 :=
  renders_mirror calls (Rack.mirrors_of_unrecorded hrack hroot hsame hnone) rfl rfl hrack hrecorded
    hroom

theorem output_of_mem_pulls {pull : Request × Nat} (h : pull ∈ player.pulls patch calls) :
    pull.2 = player.output := by
  induction calls generalizing player patch with
  | nil => cases h
  | cons call rest ih =>
    obtain ⟨controls, frames⟩ := call
    rw [pulls, List.mem_cons] at h
    obtain rfl | h := h
    · rfl
    · split at h
      next => cases h
      next hrender =>
        have hnext : (player.render controls frames patch).2.1.output = player.output := rfl
        rw [hrender] at hnext
        rw [ih h, hnext]

theorem tally_fillings (hrack : patch.rack.WellFormed) (hframes : ∀ call ∈ calls, call.2 = frames)
    (hle : frames ≤ maxFrames) (hreaches : patch.rack.Reaches player.output id)
    (hnode : patch.rack.nodes[id]? = some node) (hstale : node.isStale player.clock = true) :
    ∃ count, Tally (player.renders calls patch).1 count ∧
      (patch.rack.fillings id (player.pulls patch calls)).map (·.block.size)
        = List.replicate count (frames * node.device.channels) := by
  induction calls generalizing player patch node with
  | nil => exact ⟨0, rfl, rfl⟩
  | cons call rest ih =>
    obtain ⟨controls, size⟩ := call
    obtain ⟨hsize, hrest⟩ := List.forall_mem_cons.1 hframes
    dsimp only at hsize
    subst hsize
    set request : Request := { timestamp := player.clock, frames := size, controls } with hrequest
    have hclamped : request.clamped.frames = size := Nat.min_eq_left hle
    have hblock : ∀ {filling : Filling}, filling.Genuine id → filling.request = request.clamped →
        filling.before = node → filling.block.size = size * node.device.channels := by
      intro filling hgenuine heq hbefore
      rw [hgenuine.size_block, heq, hclamped, hbefore]
    have hrack' : (player.render controls size patch).2.2.rack
        = (patch.rack.output request player.output).2 := rfl
    have hnext : (player.render controls size patch).2.1
        = { player with clock := player.clock + 1 } := rfl
    rw [renders, pulls, Rack.fillings, List.map_append]
    cases hrender : player.render controls size patch with
    | mk result played =>
      rw [hrender] at hrack' hnext
      cases result with
      | error e =>
        rw [Rack.fillings, List.map_nil, List.append_nil]
        obtain ⟨hnone, -⟩ | ⟨filling, hfilling, hgenuine, heq, -, hbefore⟩ :=
          Rack.fillingOf_cases hrack request player.output id
        · exact ⟨0, Or.inl rfl, by rw [hnone]; rfl⟩
        · rw [hnode] at hbefore
          refine ⟨1, Or.inr rfl, ?_⟩
          rw [hfilling, Option.toList_some, List.map_singleton,
            hblock hgenuine heq (Option.some.inj hbefore).symm]
          rfl
      | ok block =>
        have hok : (patch.rack.refresh request.clamped player.output).1 = .ok () :=
          refresh_of_render (congrArg Prod.fst hrender)
        obtain ⟨filling, hfilling, hgenuine, heq, hfound, hbefore⟩ :=
          Rack.exists_fillingOf_of_reaches hrack hreaches hnode hstale hok
        have hafter : played.2.rack.nodes[id]? = some filling.after := by
          rw [hrack', ← hfound]
          exact hgenuine.node_eq
        have hlater : filling.after.isStale played.1.clock = true := by
          rw [hnext]
          apply isStale_succ
          rw [hgenuine.last_eq, heq]
          rfl
        have hreaches' : played.2.rack.Reaches played.1.output id := by
          rw [hnext, hrack', Rack.reaches_of_shape (Rack.shape_output patch.rack request _)]
          exact hreaches
        have hwell : played.2.rack.WellFormed := by
          rw [hrack']
          exact hrack.output request player.output
        obtain ⟨count, htally, hsizes⟩ := ih hwell hrest hreaches' hafter hlater
        refine ⟨count + 1, ⟨count, rfl, htally⟩, ?_⟩
        rw [hfilling, Option.toList_some, List.map_singleton, hblock hgenuine heq hbefore, ← hrack']
        simp only [hsizes, hgenuine.device_eq, hbefore]
        rw [List.replicate_succ, List.singleton_append]

end Player
end PatchSynth
