import PatchSynth.Proofs.Rack.Atomic
import PatchSynth.Proofs.Rack.Release

/-!
This module contains that a rack plays on as if nothing was recorded. A recorder writes between the
fill of a node and the check of its range, but all that it can do to a pull is to fail.
-/

namespace PatchSynth

def Node.unrecorded (node : Node) : Node :=
  { node with recorder := none }

@[simp]
theorem Node.device_unrecorded (node : Node) : node.unrecorded.device = node.device := rfl

@[simp]
theorem Node.phase_unrecorded (node : Node) : node.unrecorded.phase = node.phase := rfl

namespace Rack

def unrecorded (rack : Rack) : Rack :=
  { nodes := rack.nodes.map Node.unrecorded }

variable {rack other : Rack} {request : Request} {id frames : Nat} {node : Node}

theorem getElem?_unrecorded (rack : Rack) (id : Nat) :
    rack.unrecorded.nodes[id]? = rack.nodes[id]?.map Node.unrecorded :=
  Array.getElem?_map

theorem unrecorded_ext
    (h : ∀ id : Nat, other.nodes[id]?.map Node.unrecorded = rack.nodes[id]?.map Node.unrecorded) :
    other.unrecorded = rack.unrecorded := by
  have hnodes : other.unrecorded.nodes = rack.unrecorded.nodes := by
    apply Array.ext_getElem?
    intro id
    rw [getElem?_unrecorded, getElem?_unrecorded, h]
  simp only [unrecorded] at hnodes ⊢
  rw [hnodes]

theorem unrecorded_update (rack : Rack) (id : Nat) (f : Node → Node)
    (h : ∀ node, (f node).unrecorded = f node.unrecorded) :
    (rack.update id f).unrecorded = rack.unrecorded.update id f := by
  have hnodes : (rack.update id f).unrecorded.nodes = (rack.unrecorded.update id f).nodes := by
    apply Array.ext_getElem?
    intro other
    rw [getElem?_unrecorded, getElem?_update, getElem?_update, getElem?_unrecorded]
    split
    next =>
      rw [Option.map_map, Option.map_map]
      congr 1
      funext node
      exact h node
    next => rfl
  simp only [unrecorded, update] at hnodes ⊢
  rw [hnodes]

theorem unrecorded_update_recorder (rack : Rack) (id : Nat) (recorder : Option Recorder)
    (files : Files) :
    unrecorded { rack.update id fun node => { node with recorder := recorder } with files }
      = rack.unrecorded := by
  apply unrecorded_ext
  intro other
  show (rack.update id _).nodes[other]?.map _ = _
  rw [getElem?_update]
  split
  next =>
    rw [Option.map_map]
    rfl
  next => rfl

theorem unrecorded_record (rack : Rack) (id : Nat) (path : String) (scaler : Float32) :
    (rack.record id path scaler).2.unrecorded = rack.unrecorded := by
  obtain heq | ⟨_, recorder, files, -, -, heq⟩ := rack.snd_record_cases id path scaler
  · rw [heq]
  · rw [heq, unrecorded_update_recorder]

theorem unrecorded_stop (rack : Rack) (id : Nat) :
    (rack.stop id).2.unrecorded = rack.unrecorded := by
  obtain heq | ⟨files, heq⟩ := rack.snd_stop_cases id
  · rw [heq]
  · rw [heq, unrecorded_update_recorder]

theorem unrecorded_forAll_stop (ids : List Nat) (rack : Rack) :
    (forAll (fun id rack => rack.stop id) ids rack).2.unrecorded = rack.unrecorded :=
  keep_forAll_stop (P := fun next => next.unrecorded = rack.unrecorded)
    (fun id h => (unrecorded_stop _ id).trans h) rfl ids

theorem shape_unrecorded (rack : Rack) : rack.unrecorded.shape = rack.shape := by
  apply shape_ext
  intro id
  rw [getElem?_unrecorded, Option.map_map]
  rfl

theorem blockOf_unrecorded (rack : Rack) (id frames : Nat) :
    rack.unrecorded.blockOf id frames = rack.blockOf id frames := by
  simp only [blockOf, getElem?_unrecorded]
  cases rack.nodes[id]? <;> rfl

theorem feed_unrecorded (rack : Rack) (frames : Nat) :
    rack.unrecorded.feed frames = rack.feed frames := by
  funext id
  rw [feed, feed, rangeOf_of_shape (shape_unrecorded rack), blockOf_unrecorded]

theorem unrecorded_recordBlock (rack : Rack) (id frames : Nat) :
    (rack.recordBlock id frames).2.unrecorded = rack.unrecorded := by
  unfold recordBlock
  split
  next => rfl
  next =>
    split
    next => rfl
    next => rw [unrecorded_update_recorder]

theorem recordBlock_unrecorded (rack : Rack) (id frames : Nat) :
    rack.unrecorded.recordBlock id frames = (.ok (), rack.unrecorded) := by
  unfold recordBlock
  rw [getElem?_unrecorded]
  cases rack.nodes[id]? <;> rfl

theorem of_recordBlock_eq_error {e : Error} (h : (rack.recordBlock id frames).1 = .error e) :
    ∃ cause, e = .file cause := by
  unfold recordBlock at h
  split at h
  next => cases h
  next node _ =>
    split at h
    next => cases h
    next recorder _ =>
      generalize recorder.writeBlock (node.block frames) rack.files = written at h
      obtain ⟨result, recorder, files⟩ := written
      cases result with
      | error cause =>
        cases h
        exact ⟨cause, rfl⟩
      | ok _ => cases h

def Unheard (run plain : Except Error Unit × Rack) : Prop :=
  (∀ cause, run.1 ≠ .error (.file cause)) → plain = (run.1, run.2.unrecorded)

theorem unheard_complete (request : Request) (id : Nat) (node : Node) (rack : Rack) :
    Unheard (complete request id node rack)
      (complete request id node.unrecorded rack.unrecorded) := by
  intro hrun
  unfold complete at hrun ⊢
  rw [feed_unrecorded, Node.device_unrecorded, Node.phase_unrecorded]
  cases hfill : (node.device.map (rack.feed request.frames)).fill request node.phase with
  | error e => rfl
  | ok result =>
    rw [hfill] at hrun
    have hstored : (rack.update id (·.store request.timestamp result)).unrecorded
        = rack.unrecorded.update id (·.store request.timestamp result) :=
      unrecorded_update rack id _ fun _ => rfl
    have hkept := unrecorded_recordBlock (rack.update id (·.store request.timestamp result)) id
      request.frames
    have hfile := @of_recordBlock_eq_error (rack.update id (·.store request.timestamp result)) id
      request.frames
    dsimp only at hrun ⊢
    rw [← hstored, recordBlock_unrecorded]
    generalize (rack.update id (·.store request.timestamp result)).recordBlock id request.frames
      = written at hrun hkept hfile ⊢
    obtain ⟨result, next⟩ := written
    cases result with
    | error e =>
      obtain ⟨cause, rfl⟩ := hfile rfl
      exact absurd rfl (hrun cause)
    | ok _ =>
      rw [← hkept]
      rfl

theorem unheard_forAll {act : Nat → Rack → Except Error Unit × Rack} {ids : List Nat}
    (hact : ∀ id ∈ ids, ∀ rack, Unheard (act id rack) (act id rack.unrecorded)) (rack : Rack) :
    Unheard (forAll act ids rack) (forAll act ids rack.unrecorded) := by
  induction ids generalizing rack with
  | nil => exact fun _ => rfl
  | cons id rest ih =>
    rw [List.forall_mem_cons] at hact
    obtain ⟨hfirst, hrest⟩ := hact
    have hplain := hfirst rack
    rw [forAll, forAll]
    intro hrun
    cases hresult : act id rack with
    | mk result next =>
      rw [hresult] at hrun hplain
      cases result with
      | error e => rw [hplain hrun]
      | ok _ =>
        rw [hplain fun cause => nofun]
        exact ih hrest next hrun

theorem unheard_refresh (request : Request) (id : Nat) (rack : Rack) :
    Unheard (rack.refresh request id) (rack.unrecorded.refresh request id) := by
  -- The inputs stand before the node, and the rack changes from one to the next.
  induction id using Nat.strongRecOn generalizing rack with
  | ind id ih =>
    have hsame := getElem?_unrecorded rack id
    cases hnode : rack.nodes[id]? with
    | none =>
      rw [hnode] at hsame
      rw [refresh_of_none hnode, refresh_of_none hsame]
      exact fun _ => rfl
    | some node =>
      rw [hnode] at hsame
      cases hstale : node.isStale request.timestamp with
      | false =>
        rw [refresh_of_fresh hnode hstale, refresh_of_fresh hsame hstale]
        exact fun _ => rfl
      | true =>
        have hreads : Unheard
            (forAll (refreshBelow request id) node.device.reads (rack.update id Node.touch))
            (forAll (refreshBelow request id) node.device.reads
              (rack.update id Node.touch).unrecorded) := by
          apply unheard_forAll
          intro input _ rack
          unfold refreshBelow
          split
          next hlt => exact ih input hlt rack
          next => exact fun _ => rfl
        rw [refresh_of_stale hnode hstale, refresh_of_stale hsame hstale, Node.device_unrecorded,
          checkDemands_of_shape (shape_unrecorded rack),
          ← unrecorded_update rack id Node.touch fun _ => rfl]
        cases rack.checkDemands node.device with
        | error e => exact fun _ => rfl
        | ok _ =>
          intro hrun
          dsimp only at hrun ⊢
          cases hresult : forAll (refreshBelow request id) node.device.reads
              (rack.update id Node.touch) with
          | mk result next =>
            rw [hresult] at hrun hreads
            cases result with
            | error e => rw [hreads hrun]
            | ok _ =>
              rw [hreads fun cause => nofun]
              exact unheard_complete request id node next hrun

theorem output_unrecorded (h : ∀ cause, (rack.output request id).1 ≠ .error (.file cause)) :
    rack.unrecorded.output request id
      = ((rack.output request id).1, (rack.output request id).2.unrecorded) := by
  have hrefresh : ∀ cause, (rack.refresh request.clamped id).1 ≠ .error (.file cause) := by
    intro cause herror
    apply h cause
    rw [fst_output_clamped, herror]
    rfl
  have hplain := unheard_refresh request.clamped id rack hrefresh
  apply Prod.ext
  · rw [fst_output_clamped, fst_output_clamped, hplain]
    simp only [blockOf_unrecorded]
  · rw [nodes_output_clamped, nodes_output_clamped, hplain]

end Rack
end PatchSynth
