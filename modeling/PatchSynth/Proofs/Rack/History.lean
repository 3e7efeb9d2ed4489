import PatchSynth.Proofs.Rack.Atomic
import PatchSynth.Proofs.Rack.Later

/-!
This module contains the fills that a node goes through in calls that are made one after the other.
A call fills a node once or not at all, and it can be told from the timestamp of the node, which
only a fill moves on.
-/

namespace PatchSynth

/--
One fill of a node: what the call that came to it asked for, the node before and after the call, and
the rack after it.
-/
structure Filling where
  request : Request
  before : Node
  after : Node
  rack : Rack

namespace Filling

def block (filling : Filling) : Block :=
  filling.after.block filling.request.frames

/--
Whether the node with an index was filled from the blocks that its inputs have in the rack.
-/
structure Genuine (filling : Filling) (id : Nat) : Prop where
  wellFormed : filling.rack.WellFormed
  frames_le : filling.request.frames ≤ maxFrames
  node_eq : filling.rack.nodes[id]? = some filling.after
  filledAs : Rack.FilledAs filling.request filling.rack filling.before filling.after

variable {filling : Filling} {id : Nat}

theorem Genuine.last_eq (h : filling.Genuine id) :
    filling.after.last = some filling.request.timestamp := by
  obtain ⟨result, fills, -, hafter⟩ := h.filledAs.fill
  rw [hafter]
  simp [Rack.Step.filled, Node.store]

theorem Genuine.device_eq (h : filling.Genuine id) :
    filling.after.device = filling.before.device := by
  obtain ⟨result, fills, -, hafter⟩ := h.filledAs.fill
  rw [hafter]
  simp [Rack.Step.filled, Node.store]

theorem Genuine.size_block (h : filling.Genuine id) :
    filling.block.size = filling.request.frames * filling.before.device.channels := by
  rw [← h.device_eq]
  exact Node.size_block (h.wellFormed.sound h.node_eq) h.frames_le

end Filling

namespace Rack

def fillingOf (rack : Rack) (request : Request) (root id : Nat) : Option Filling :=
  let next := (rack.output request root).2
  match rack.nodes[id]?, next.nodes[id]? with
  | some before, some after =>
    if after.last = before.last then
      none
    else
      some { request := request.clamped, before, after, rack := next }
  | _, _ => none

def fillings (rack : Rack) (id : Nat) : List (Request × Nat) → List Filling
  | [] => []
  | (request, root) :: rest =>
    (rack.fillingOf request root id).toList ++ (rack.output request root).2.fillings id rest

def outputs (rack : Rack) (pulls : List (Request × Nat)) : Rack :=
  pulls.foldl (fun rack pull => (rack.output pull.1 pull.2).2) rack

variable {rack : Rack} {request : Request} {root id : Nat} {filled : List Nat}

theorem HasFilled.fillingOf_of_mem
    (h : HasFilled request.clamped rack (rack.output request root).2 filled) (hmem : id ∈ filled) :
    ∃ before after, rack.nodes[id]? = some before ∧
      (rack.output request root).2.nodes[id]? = some after ∧
      FilledAs request.clamped (rack.output request root).2 before after ∧
      rack.fillingOf request root id
        = some { request := request.clamped, before, after
                 rack := (rack.output request root).2 } := by
  obtain ⟨before, after, hbefore, hafter, hfilledAs⟩ := h.of_mem hmem
  refine ⟨before, after, hbefore, hafter, hfilledAs, ?_⟩
  -- A block of before the call with the same timestamp would not have been stale.
  have hmoved : after.last ≠ before.last := by
    intro hlast
    have hfresh := fresh_of_filledAs hfilledAs
    rw [Node.isStale_of_last_eq hlast, hfilledAs.stale] at hfresh
    cases hfresh
  simp only [fillingOf, hbefore, hafter, if_neg hmoved]

theorem HasFilled.fillingOf_of_not_mem
    (h : HasFilled request.clamped rack (rack.output request root).2 filled) (hmem : id ∉ filled) :
    rack.fillingOf request root id = none := by
  unfold fillingOf
  dsimp only
  cases hbefore : rack.nodes[id]? with
  | none => rfl
  | some before =>
    obtain ⟨fills, hkept⟩ := h.kept hmem hbefore
    rw [hkept]
    exact if_pos rfl

theorem exists_hasFilled (rack : Rack) (request : Request) (root : Nat) :
    ∃ filled, HasFilled request.clamped rack (rack.output request root).2 filled := by
  rw [nodes_output_clamped]
  exact (steps_refresh request.clamped root rack).1.hasFilled

theorem fillingOf_cases (h : rack.WellFormed) (request : Request) (root id : Nat) :
    (rack.fillingOf request root id = none ∧
      ∀ before, rack.nodes[id]? = some before →
        ∃ fills, (rack.output request root).2.nodes[id]? = some { before with fills }) ∨
    ∃ filling, rack.fillingOf request root id = some filling ∧ filling.Genuine id ∧
      filling.request = request.clamped ∧ filling.rack = (rack.output request root).2 ∧
      rack.nodes[id]? = some filling.before := by
  obtain ⟨filled, hfilled⟩ := rack.exists_hasFilled request root
  by_cases hmem : id ∈ filled
  · obtain ⟨before, after, hbefore, hafter, hfilledAs, heq⟩ := hfilled.fillingOf_of_mem hmem
    refine Or.inr ⟨_, heq, ?_, rfl, rfl, hbefore⟩
    exact ⟨h.output request root, Nat.min_le_right _ _, hafter, hfilledAs⟩
  · exact Or.inl ⟨hfilled.fillingOf_of_not_mem hmem, fun before hbefore =>
      hfilled.kept hmem hbefore⟩

theorem exists_fillingOf_of_reaches (h : rack.WellFormed) (hreaches : rack.Reaches root id)
    {before : Node} (hbefore : rack.nodes[id]? = some before)
    (hstale : before.isStale request.timestamp = true)
    (hok : (rack.refresh request.clamped root).1 = .ok ()) :
    ∃ filling, rack.fillingOf request root id = some filling ∧ filling.Genuine id ∧
      filling.request = request.clamped ∧ filling.rack = (rack.output request root).2 ∧
      filling.before = before := by
  obtain ⟨-, hkept⟩ | ⟨filling, hfilling, hgenuine, hrequest, heq, hfound⟩ :=
    fillingOf_cases h request root id
  · -- The node would have an old block after the call.
    have hframes : request.clamped.frames ≤ maxFrames := Nat.min_le_right _ _
    have hnext := h.refresh hframes root
    have hroot := (steps_refresh request.clamped root rack).2 hok
    rw [← reaches_of_shape (shape_refresh request.clamped rack root)] at hreaches
    obtain ⟨node, hnode, hfresh⟩ := hnext.isCurrent_of_reaches hroot hreaches
    obtain ⟨fills, hsame⟩ := hkept before hbefore
    rw [nodes_output_clamped, hnode] at hsame
    cases hsame
    have hstale' := hfresh.symm.trans hstale
    cases hstale'
  · rw [hbefore] at hfound
    exact ⟨filling, hfilling, hgenuine, hrequest, heq, (Option.some.inj hfound).symm⟩

theorem exists_fillingOf (h : rack.WellFormed) {before : Node}
    (hbefore : rack.nodes[root]? = some before) (hstale : before.isStale request.timestamp = true)
    (hok : (rack.refresh request.clamped root).1 = .ok ()) :
    ∃ filling, rack.fillingOf request root root = some filling ∧ filling.Genuine root ∧
      filling.request = request.clamped ∧ filling.rack = (rack.output request root).2 ∧
      filling.before = before :=
  exists_fillingOf_of_reaches h (Reaches.refl rack root) hbefore hstale hok

theorem later_outputs (rack : Rack) (pulls : List (Request × Nat)) :
    rack.Later (rack.outputs pulls) := by
  induction pulls generalizing rack with
  | nil => exact Later.refl
  | cons pull rest ih => exact (Later.refl.output pull.1 pull.2).trans (ih _)

theorem shape_output (rack : Rack) (request : Request) (root : Nat) :
    (rack.output request root).2.shape = rack.shape := by
  rw [nodes_output]
  exact shape_refresh _ rack root

theorem shape_outputs (rack : Rack) (pulls : List (Request × Nat)) :
    (rack.outputs pulls).shape = rack.shape := by
  induction pulls generalizing rack with
  | nil => rfl
  | cons pull rest ih => exact (ih _).trans (rack.shape_output pull.1 pull.2)

theorem genuine_of_mem_fillings (h : rack.WellFormed) {pulls : List (Request × Nat)}
    {filling : Filling} (hmem : filling ∈ rack.fillings id pulls) :
    filling.Genuine id ∧ filling.rack.shape = rack.shape ∧
      ∃ pull ∈ pulls, filling.request = pull.1.clamped := by
  induction pulls generalizing rack with
  | nil => cases hmem
  | cons pull rest ih =>
    rw [fillings, List.mem_append, Option.mem_toList] at hmem
    obtain hmem | hmem := hmem
    · obtain ⟨hnone, -⟩ | ⟨found, hfound, hgenuine, hrequest, heq, -⟩ :=
        fillingOf_cases h pull.1 pull.2 id
      · rw [hnone] at hmem
        cases hmem
      · rw [hfound] at hmem
        cases hmem
        exact ⟨hgenuine, by rw [heq, shape_output], pull, List.mem_cons_self, hrequest⟩
    · obtain ⟨hgenuine, hshape, other, hother, hrequest⟩ := ih (h.output pull.1 pull.2) hmem
      exact ⟨hgenuine, by rw [hshape, shape_output], other, List.mem_cons_of_mem _ hother,
        hrequest⟩

theorem lt_of_mem_fillings (h : rack.WellFormed) {pulls : List (Request × Nat)}
    {filling : Filling} (hmem : filling ∈ rack.fillings id pulls) {node : Node} {last : Nat}
    (hnode : rack.nodes[id]? = some node) (hlast : node.last = some last) :
    last < filling.request.timestamp := by
  induction pulls generalizing rack node last with
  | nil => cases hmem
  | cons pull rest ih =>
    have hnext := h.output pull.1 pull.2
    rw [fillings, List.mem_append, Option.mem_toList] at hmem
    obtain ⟨hnone, hkept⟩ | ⟨found, hfound, hgenuine, -, heq, hbefore⟩ :=
      fillingOf_cases h pull.1 pull.2 id
    · obtain ⟨fills, hsame⟩ := hkept node hnode
      rw [hnone] at hmem
      obtain hmem | hmem := hmem
      · cases hmem
      · exact ih hnext hmem hsame hlast
    · rw [hnode] at hbefore
      cases hbefore
      have hnewer := Node.isStale_eq_true_iff.1 hgenuine.filledAs.stale last hlast
      rw [hfound] at hmem
      obtain hmem | hmem := hmem
      · cases hmem
        exact hnewer
      · have hafter := hgenuine.node_eq
        rw [heq] at hafter
        have hlater := ih hnext hmem hafter hgenuine.last_eq
        omega

theorem pairwise_fillings (h : rack.WellFormed) (id : Nat) (pulls : List (Request × Nat)) :
    (rack.fillings id pulls).Pairwise fun filling later =>
      filling.request.timestamp < later.request.timestamp := by
  induction pulls generalizing rack with
  | nil => exact List.Pairwise.nil
  | cons pull rest ih =>
    have hnext := h.output pull.1 pull.2
    rw [fillings]
    obtain ⟨hnone, -⟩ | ⟨found, hfound, hgenuine, -, heq, -⟩ :=
      fillingOf_cases h pull.1 pull.2 id
    · rw [hnone]
      exact ih hnext
    · rw [hfound, Option.toList_some, List.singleton_append, List.pairwise_cons]
      have hafter := hgenuine.node_eq
      rw [heq] at hafter
      exact ⟨fun later hlater => lt_of_mem_fillings hnext hlater hafter hgenuine.last_eq, ih hnext⟩

theorem le_of_mem_fillings (h : rack.WellFormed) {pulls : List (Request × Nat)}
    {filling : Filling} (hmem : filling ∈ rack.fillings id pulls) :
    ∃ node last, (rack.outputs pulls).nodes[id]? = some node ∧ node.last = some last ∧
      filling.request.timestamp ≤ last := by
  induction pulls generalizing rack with
  | nil => cases hmem
  | cons pull rest ih =>
    have hnext := h.output pull.1 pull.2
    rw [fillings, List.mem_append, Option.mem_toList] at hmem
    obtain hmem | hmem := hmem
    · obtain ⟨hnone, -⟩ | ⟨found, hfound, hgenuine, -, heq, -⟩ :=
        fillingOf_cases h pull.1 pull.2 id
      · rw [hnone] at hmem
        cases hmem
      · rw [hfound] at hmem
        cases hmem
        have hafter := hgenuine.node_eq
        rw [heq] at hafter
        exact (later_outputs _ rest).last_le hafter hgenuine.last_eq
    · exact ih hnext hmem

end Rack
end PatchSynth
