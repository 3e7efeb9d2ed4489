import PatchSynth.Proofs.Rack.Atomic
import PatchSynth.Proofs.Rack.Mirror
import PatchSynth.Proofs.Rack.References

/-!
This module contains how far a pull looks. It depends on the nodes that lead to the pulled one and
on no others, be it in its result or in the state that it leaves them in, whether it succeeds or
fails. The files do not matter to it.
-/

namespace PatchSynth
namespace Rack

def SameOn (among : Nat → Prop) (rack other : Rack) : Prop :=
  ∀ id, among id → other.nodes[id]? = rack.nodes[id]?

def Closed (among : Nat → Prop) (rack : Rack) : Prop :=
  ∀ id, among id → ∀ input ∈ rack.inputsOf id, among input

variable {among : Nat → Prop} {request : Request} {rack other : Rack} {id : Nat} {node : Node}

theorem Closed.of_shape (h : rack.Closed among) (hshape : other.shape = rack.shape) :
    other.Closed among := by
  unfold Closed
  rw [inputsOf_of_shape hshape]
  exact h

theorem closed_alive (rack : Rack) (roots : List Nat) : rack.Closed (rack.Alive roots) :=
  fun _ halive _ hmem => halive.input hmem

theorem Closed.among_of_mem (h : rack.Closed among) (hid : among id)
    (hnode : rack.nodes[id]? = some node) {input : Nat} (hmem : input ∈ node.device.inputs) :
    among input := by
  apply h id hid
  rw [inputsOf, hnode]
  exact hmem

theorem SameOn.alive {roots : List Nat} (h : SameOn (rack.Alive roots) rack other)
    (halive : rack.Alive roots id) : other.Alive roots id := by
  induction halive with
  | root hmem => exact Alive.root hmem
  | input hid hmem ih =>
    apply ih.input
    rw [inputsOf, h _ hid]
    exact hmem

theorem SameOn.update (h : SameOn among rack other) (id : Nat) (f : Node → Node) :
    SameOn among (rack.update id f) (other.update id f) := by
  intro now hnow
  rw [getElem?_update, getElem?_update, h now hnow]

theorem SameOn.fill_eq (h : SameOn among rack other) {device : Device Nat}
    (hinputs : ∀ input ∈ device.inputs, among input) (phase : Float32) :
    (device.map (other.feed request.frames)).fill request phase
      = (device.map (rack.feed request.frames)).fill request phase := by
  have hfeed : device.map (other.feed request.frames) = device.map (rack.feed request.frames) := by
    apply Device.map_congr
    intro input hmem
    simp only [feed, rangeOf, blockOf, h input (hinputs input hmem)]
  rw [hfeed]

structure Matches (among : Nat → Prop) (run other : Except Error Unit × Rack) : Prop where
  fst_eq : other.1 = run.1
  sameOn : SameOn among run.2 other.2

theorem Matches.exists_eq {run twin : Except Error Unit × Rack} (h : Matches among run twin) :
    ∃ result next next', run = (result, next) ∧ twin = (result, next') ∧ SameOn among next next' :=
  ⟨run.1, run.2, twin.2, rfl, Prod.ext h.fst_eq rfl, h.sameOn⟩

theorem SameOn.matches_complete (h : SameOn among rack other) (hid : among id) {touched : Node}
    (hnode : rack.nodes[id]? = some touched) (hinputs : ∀ input ∈ node.device.inputs, among input) :
    Matches among (complete request id node rack) (complete request id node other) := by
  have hother : other.nodes[id]? = some touched := by rw [h id hid, hnode]
  refine ⟨by rw [fst_complete hnode, fst_complete hother, h.fill_eq hinputs], ?_⟩
  rw [snd_complete, snd_complete, h.fill_eq hinputs]
  split
  next => exact h
  next =>
    intro now hnow
    rw [Step.nodes_fill hnode, Step.nodes_fill hother, h now hnow]

def IsLocal (among : Nat → Prop) (base : Rack) (act : Rack → Except Error Unit × Rack) : Prop :=
  ∀ rack other : Rack, rack.shape = base.shape → SameOn among rack other →
    (act rack).2.shape = base.shape ∧ Matches among (act rack) (act other)

theorem matches_forAll {act : Nat → Rack → Except Error Unit × Rack} {inputs : List Nat}
    {base : Rack} (hact : ∀ input ∈ inputs, IsLocal among base (act input))
    (hshape : rack.shape = base.shape) (h : SameOn among rack other) :
    Matches among (forAll act inputs rack) (forAll act inputs other) := by
  induction inputs generalizing rack other with
  | nil => exact ⟨rfl, h⟩
  | cons input rest ih =>
    rw [List.forall_mem_cons] at hact
    obtain ⟨hfirst, hrest⟩ := hact
    obtain ⟨hnext, hmatches⟩ := hfirst rack other hshape h
    obtain ⟨result, next, next', hrun, htwin, hsame⟩ := hmatches.exists_eq
    rw [hrun] at hnext
    rw [forAll, forAll, hrun, htwin]
    cases result with
    | error e => exact ⟨rfl, hsame⟩
    | ok _ => exact ih hrest hnext hsame

theorem isLocal_refreshBelow {base : Rack} {input : Nat}
    (hrefresh : input < id → ∀ rack other : Rack, rack.shape = base.shape →
      SameOn among rack other →
        Matches among (rack.refresh request input) (other.refresh request input)) :
    IsLocal among base (refreshBelow request id input) := by
  intro rack other hshape h
  unfold refreshBelow
  split
  next hlt => exact ⟨by rw [shape_refresh, hshape], hrefresh hlt rack other hshape h⟩
  next => exact ⟨hshape, rfl, h⟩

theorem SameOn.matches_stale {base : Rack} (h : SameOn among rack other)
    (hshape : rack.shape = base.shape) (hid : among id) (hnode : rack.nodes[id]? = some node)
    (hstale : node.isStale request.timestamp = true)
    (hinputs : ∀ input ∈ node.device.inputs, among input)
    (hact : ∀ input ∈ node.device.reads, IsLocal among base (refreshBelow request id input)) :
    Matches among (rack.refresh request id) (other.refresh request id) := by
  have hother : other.nodes[id]? = some node := by rw [h id hid, hnode]
  have htouched : (rack.update id Node.touch).shape = base.shape := by rw [shape_touch, hshape]
  have hreads : Steps request (rack.Upstream id) (rack.update id Node.touch)
      (forAll (refreshBelow request id) node.device.reads (rack.update id Node.touch)).2 :=
    (steps_reads hnode (shape_touch rack id)).1
  have hself := hreads.nodes_touched hnode
  obtain ⟨result, next, next', hrun, htwin, hsame⟩ :=
    (matches_forAll hact htouched (h.update id Node.touch)).exists_eq
  rw [hrun] at hself
  rw [refresh_of_stale hnode hstale, refresh_of_stale hother hstale,
    checkDemands_congr fun input hmem => h input (hinputs input hmem), hrun, htwin]
  cases rack.checkDemands node.device with
  | error e => exact ⟨rfl, h⟩
  | ok _ =>
    cases result with
    | error e => exact ⟨rfl, hsame⟩
    | ok _ => exact hsame.matches_complete hid hself hinputs

theorem SameOn.matches_refresh {base : Rack} (h : SameOn among rack other)
    (hclosed : base.Closed among) (hshape : rack.shape = base.shape) (hid : among id) :
    Matches among (rack.refresh request id) (other.refresh request id) := by
  -- The racks change from one read to the next, but `base` keeps the wiring for all of them.
  induction id using Nat.strongRecOn generalizing rack other with
  | ind id ih =>
    have hsame := h id hid
    cases hnode : rack.nodes[id]? with
    | none =>
      rw [hnode] at hsame
      rw [refresh_of_none hnode, refresh_of_none hsame]
      exact ⟨rfl, h⟩
    | some node =>
      rw [hnode] at hsame
      cases hstale : node.isStale request.timestamp with
      | false =>
        rw [refresh_of_fresh hnode hstale, refresh_of_fresh hsame hstale]
        exact ⟨rfl, h⟩
      | true =>
        have hinputs : ∀ input ∈ node.device.inputs, among input := fun input hmem =>
          (hclosed.of_shape hshape).among_of_mem hid hnode hmem
        apply h.matches_stale hshape hid hnode hstale hinputs
        intro input hmem
        apply isLocal_refreshBelow
        intro hlt rack other hshape h
        exact ih input hlt h hshape (hinputs input (Device.mem_inputs_of_mem_reads hmem))

theorem SameOn.output (h : SameOn among rack other) (hclosed : rack.Closed among) (hid : among id)
    (request : Request) :
    (other.output request id).1 = (rack.output request id).1 ∧
      SameOn among (rack.output request id).2 (other.output request id).2 := by
  have hmatches : Matches among (rack.refresh request.clamped id)
      (other.refresh request.clamped id) := h.matches_refresh hclosed rfl hid
  rw [fst_output_clamped, fst_output_clamped, nodes_output_clamped, nodes_output_clamped,
    hmatches.fst_eq]
  refine ⟨?_, hmatches.sameOn⟩
  simp only [blockOf, hmatches.sameOn id hid]

end Rack
end PatchSynth
