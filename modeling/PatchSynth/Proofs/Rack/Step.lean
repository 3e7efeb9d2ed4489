import PatchSynth.Proofs.Rack.Shape
import PatchSynth.Proofs.Wav.Take

/-!
This module contains the steps that a pull is made of. Each step changes one node that has no block
for the timestamp yet: a node is touched when its evaluation begins, and it is filled once all nodes
that it reads are current. `steps_refresh` says that a pull is a sequence of such steps, and that
they stay among the nodes that the pulled one reaches.
-/

namespace PatchSynth

def Node.touch (node : Node) : Node :=
  { node with fills := node.fills + 1 }

namespace Rack

theorem shape_touch (rack : Rack) (id : Nat) : (rack.update id Node.touch).shape = rack.shape := by
  apply shape_update
  intro node
  exact ⟨rfl, rfl⟩

def IsCurrent (rack : Rack) (timestamp id : Nat) : Prop :=
  ∃ node, rack.nodes[id]? = some node ∧ node.isStale timestamp = false

inductive Step (request : Request) : Nat → Rack → Rack → Prop where
  | touch {rack : Rack} {id : Nat} {node : Node} (hnode : rack.nodes[id]? = some node)
      (hstale : node.isStale request.timestamp = true) :
      Step request id rack (rack.update id Node.touch)
  | fill {rack : Rack} {id : Nat} {node : Node} {result : Fill}
      (hnode : rack.nodes[id]? = some node)
      (hstale : node.isStale request.timestamp = true)
      (hreads : ∀ input ∈ node.device.reads, rack.IsCurrent request.timestamp input)
      (hfill : (node.device.map (rack.feed request.frames)).fill request node.phase = .ok result) :
      Step request id rack
        ((rack.update id (·.store request.timestamp result)).recordBlock id request.frames).2

def Steps (request : Request) (among : Nat → Prop) : Rack → Rack → Prop :=
  Relation.ReflTransGen fun rack next => ∃ id, among id ∧ Step request id rack next

variable {request : Request} {among : Nat → Prop} {rack next : Rack} {id : Nat}

namespace Step

def filled (request : Request) (result : Fill) (node : Node) : Node :=
  ((node.store request.timestamp result).recorded request.frames).2

theorem nodes_fill {node : Node} {result : Fill} (hnode : rack.nodes[id]? = some node)
    (other : Nat) :
    ((rack.update id (·.store request.timestamp result)).recordBlock id
        request.frames).2.nodes[other]?
      = if id = other then some (filled request result node) else rack.nodes[other]? := by
  have hstored : (rack.update id (·.store request.timestamp result)).nodes[id]?
      = some (node.store request.timestamp result) := by
    rw [getElem?_update, if_pos rfl, hnode]
    rfl
  rw [nodes_recordBlock hstored]
  split
  next => rfl
  next hid => rw [getElem?_update, if_neg hid]

theorem nodes_cases (h : Step request id rack next) :
    ∃ node, rack.nodes[id]? = some node ∧ node.isStale request.timestamp = true ∧
      ((∀ other : Nat, next.nodes[other]?
            = if id = other then some node.touch else rack.nodes[other]?)
        ∨ ∃ result : Fill,
          (∀ input ∈ node.device.reads, rack.IsCurrent request.timestamp input) ∧
          (node.device.map (rack.feed request.frames)).fill request node.phase = .ok result ∧
          ∀ other : Nat, next.nodes[other]?
            = if id = other then some (filled request result node) else rack.nodes[other]?) := by
  cases h with
  | touch hnode hstale =>
    refine ⟨_, hnode, hstale, Or.inl ?_⟩
    intro other
    rw [getElem?_update]
    split
    next hid =>
      subst hid
      rw [hnode]
      rfl
    next => rfl
  | fill hnode hstale hreads hfill =>
    exact ⟨_, hnode, hstale, Or.inr ⟨_, hreads, hfill, nodes_fill hnode⟩⟩

theorem nodes_of_ne (h : Step request id rack next) {other : Nat} (hne : id ≠ other) :
    next.nodes[other]? = rack.nodes[other]? := by
  obtain ⟨node, -, -, htouch | ⟨result, -, -, hfill⟩⟩ := h.nodes_cases
  · rw [htouch, if_neg hne]
  · rw [hfill, if_neg hne]

theorem shape_eq (h : Step request id rack next) : next.shape = rack.shape := by
  apply shape_ext
  intro other
  by_cases hid : id = other
  · subst hid
    obtain ⟨node, hnode, -, htouch | ⟨result, -, -, hfill⟩⟩ := h.nodes_cases
    · rw [htouch, if_pos rfl, hnode]
      rfl
    · rw [hfill, if_pos rfl, hnode]
      simp [filled, Node.store]
  · rw [h.nodes_of_ne hid]

theorem nodes_of_isCurrent (h : Step request id rack next) {other : Nat}
    (hcurrent : rack.IsCurrent request.timestamp other) :
    next.nodes[other]? = rack.nodes[other]? := by
  apply h.nodes_of_ne
  intro hid
  subst hid
  obtain ⟨node, hnode, hfresh⟩ := hcurrent
  obtain ⟨stale, hstale, htrue, -⟩ := h.nodes_cases
  rw [hnode] at hstale
  cases hstale
  rw [hfresh] at htrue
  cases htrue

end Step

namespace Steps

theorem refl (request : Request) (among : Nat → Prop) (rack : Rack) :
    Steps request among rack rack :=
  Relation.ReflTransGen.refl

theorem single (hid : among id) (h : Step request id rack next) : Steps request among rack next :=
  Relation.ReflTransGen.single ⟨id, hid, h⟩

theorem trans {last : Rack} (h : Steps request among rack next)
    (hrest : Steps request among next last) : Steps request among rack last :=
  Relation.ReflTransGen.trans h hrest

theorem mono {other : Nat → Prop} (h : Steps request among rack next)
    (himp : ∀ id, among id → other id) : Steps request other rack next := by
  induction h with
  | refl => exact Relation.ReflTransGen.refl
  | tail _ hlast ih =>
    obtain ⟨id, hid, hlast⟩ := hlast
    exact Relation.ReflTransGen.tail ih ⟨id, himp id hid, hlast⟩

theorem keep {P : Rack → Prop} (h : Steps request among rack next)
    (hstep : ∀ {id : Nat} {rack next : Rack}, among id → Step request id rack next → P rack →
      P next)
    (hinv : P rack) : P next := by
  induction h with
  | refl => exact hinv
  | tail _ hlast ih =>
    obtain ⟨id, hid, hlast⟩ := hlast
    exact hstep hid hlast ih

theorem shape_eq (h : Steps request among rack next) : next.shape = rack.shape := by
  apply h.keep (P := fun next => next.shape = rack.shape)
  · intro id current next hid hstep hinv
    rw [hstep.shape_eq, hinv]
  · rfl

theorem nodes_of_not_among (h : Steps request among rack next) {other : Nat}
    (hother : ¬ among other) : next.nodes[other]? = rack.nodes[other]? := by
  apply h.keep (P := fun next => next.nodes[other]? = rack.nodes[other]?)
  · intro id current next hid hstep hinv
    rw [hstep.nodes_of_ne, hinv]
    intro heq
    exact hother (heq ▸ hid)
  · rfl

theorem nodes_of_isCurrent (h : Steps request among rack next) {other : Nat}
    (hcurrent : rack.IsCurrent request.timestamp other) :
    next.nodes[other]? = rack.nodes[other]? := by
  apply h.keep (P := fun next => next.nodes[other]? = rack.nodes[other]?)
  · intro id current next hid hstep hinv
    have hnext : current.IsCurrent request.timestamp other := by
      obtain ⟨node, hnode, hfresh⟩ := hcurrent
      exact ⟨node, by rw [hinv, hnode], hfresh⟩
    rw [hstep.nodes_of_isCurrent hnext, hinv]
  · rfl

theorem isCurrent (h : Steps request among rack next) {other : Nat}
    (hcurrent : rack.IsCurrent request.timestamp other) :
    next.IsCurrent request.timestamp other := by
  have hnodes := h.nodes_of_isCurrent hcurrent
  obtain ⟨node, hnode, hfresh⟩ := hcurrent
  exact ⟨node, by rw [hnodes, hnode], hfresh⟩

end Steps

theorem isStale_filled (request : Request) (result : Fill) (node : Node) :
    (Step.filled request result node).isStale request.timestamp = false := by
  simp [Step.filled, Node.isStale, Node.store]

theorem snd_complete (request : Request) (id : Nat) (node : Node) (rack : Rack) :
    (complete request id node rack).2 =
      match (node.device.map (rack.feed request.frames)).fill request node.phase with
      | .error _ => rack
      | .ok result =>
        ((rack.update id (·.store request.timestamp result)).recordBlock id request.frames).2 := by
  unfold complete
  cases (node.device.map (rack.feed request.frames)).fill request node.phase with
  | error e => rfl
  | ok result =>
    dsimp only
    split
    next hblock => rw [hblock]
    next hblock => rw [hblock]

theorem nodes_complete {node touched : Node} {result : Fill}
    (hnode : rack.nodes[id]? = some touched)
    (hfill : (node.device.map (rack.feed request.frames)).fill request node.phase = .ok result) :
    (complete request id node rack).2.nodes[id]? = some (Step.filled request result touched) := by
  rw [snd_complete, hfill]
  dsimp only
  rw [Step.nodes_fill hnode, if_pos rfl]

theorem steps_complete {node : Node} (hid : among id) (hnode : rack.nodes[id]? = some node)
    (hstale : node.isStale request.timestamp = true)
    (hreads : ∀ input ∈ node.device.reads, rack.IsCurrent request.timestamp input) :
    Steps request among rack (complete request id node rack).2 ∧
      ((complete request id node rack).1 = .ok () →
        (complete request id node rack).2.IsCurrent request.timestamp id) := by
  rw [snd_complete]
  unfold complete
  cases hfill : (node.device.map (rack.feed request.frames)).fill request node.phase with
  | error e => exact ⟨Steps.refl _ _ _, by intro h; cases h⟩
  | ok result =>
    constructor
    · exact Steps.single hid (Step.fill hnode hstale hreads hfill)
    · intro _
      refine ⟨Step.filled request result node, ?_, isStale_filled _ _ _⟩
      rw [Step.nodes_fill hnode, if_pos rfl]

theorem steps_forAll {act : Nat → Rack → Except Error Unit × Rack} {inputs : List Nat}
    {start : Rack}
    (hact : ∀ input ∈ inputs, ∀ rack : Rack, rack.shape = start.shape →
      Steps request among rack (act input rack).2 ∧
        ((act input rack).1 = .ok () → (act input rack).2.IsCurrent request.timestamp input))
    {rack : Rack} (hshape : rack.shape = start.shape) :
    Steps request among rack (forAll act inputs rack).2 ∧
      ((forAll act inputs rack).1 = .ok () →
        ∀ input ∈ inputs, (forAll act inputs rack).2.IsCurrent request.timestamp input) := by
  induction inputs generalizing rack with
  | nil => exact ⟨Steps.refl _ _ _, by simp⟩
  | cons input rest ih =>
    obtain ⟨hsteps, hok⟩ := hact input (List.mem_cons_self ..) rack hshape
    unfold forAll
    split
    next e next hresult =>
      rw [hresult] at hsteps
      exact ⟨hsteps, by intro h; cases h⟩
    next next hresult =>
      rw [hresult] at hsteps hok
      have hnext : next.shape = start.shape := by rw [hsteps.shape_eq, hshape]
      obtain ⟨hrest, hall⟩ := ih (fun input hmem => hact input (List.mem_cons_of_mem _ hmem)) hnext
      refine ⟨hsteps.trans hrest, ?_⟩
      intro h other hmem
      rcases List.mem_cons.1 hmem with rfl | hmem
      · exact hrest.isCurrent (hok rfl)
      · exact hall h other hmem

/--
The nodes that a node reaches. In a rack that was built node by node the bound says nothing more.
-/
def Cone (rack : Rack) (id other : Nat) : Prop :=
  other ≤ id ∧ rack.Reaches id other

def Upstream (rack : Rack) (id other : Nat) : Prop :=
  other < id ∧ rack.Reaches id other

theorem cone_of_upstream {other : Nat} (h : rack.Upstream id other) : rack.Cone id other :=
  ⟨Nat.le_of_lt h.1, h.2⟩

def refreshBelow (request : Request) (id input : Nat) (rack : Rack) : Except Error Unit × Rack :=
  if input < id then rack.refresh request input else (.error (.unwired input), rack)

theorem refresh_of_none (hnode : rack.nodes[id]? = none) :
    rack.refresh request id = (.error (.unwired id), rack) := by
  rw [refresh_eq, hnode]

theorem refresh_of_fresh {node : Node} (hnode : rack.nodes[id]? = some node)
    (hfresh : node.isStale request.timestamp = false) :
    rack.refresh request id = (.ok (), rack) := by
  rw [refresh_eq, hnode]
  simp [hfresh]

theorem refresh_of_stale {node : Node} (hnode : rack.nodes[id]? = some node)
    (hstale : node.isStale request.timestamp = true) :
    rack.refresh request id =
      match rack.checkDemands node.device with
      | .error e => (.error e, rack)
      | .ok () =>
        match forAll (refreshBelow request id) node.device.reads (rack.update id Node.touch) with
        | (.error e, next) => (.error e, next)
        | (.ok (), next) => complete request id node next := by
  rw [refresh_eq, hnode]
  simp only [hstale, if_true]
  rfl

theorem Steps.nodes_touched {base : Rack} {node : Node}
    (h : Steps request (base.Upstream id) (rack.update id Node.touch) next)
    (hnode : rack.nodes[id]? = some node) : next.nodes[id]? = some node.touch := by
  rw [h.nodes_of_not_among (by simp [Upstream]), getElem?_update, if_pos rfl, hnode]
  rfl

theorem steps_reads_of {node : Node}
    (hbelow : ∀ input < id, ∀ current : Rack,
      Steps request (current.Cone input) current (current.refresh request input).2 ∧
        ((current.refresh request input).1 = .ok () →
          (current.refresh request input).2.IsCurrent request.timestamp input))
    (hnode : rack.nodes[id]? = some node) {current : Rack} (hshape : current.shape = rack.shape) :
    Steps request (rack.Upstream id) current
        (forAll (refreshBelow request id) node.device.reads current).2 ∧
      ((forAll (refreshBelow request id) node.device.reads current).1 = .ok () →
        ∀ input ∈ node.device.reads,
          (forAll (refreshBelow request id) node.device.reads current).2.IsCurrent
            request.timestamp input) := by
  apply steps_forAll _ hshape
  intro input hmem current hshape
  unfold refreshBelow
  split
  next hlt =>
    obtain ⟨hsteps, hok⟩ := hbelow input hlt current
    refine ⟨hsteps.mono ?_, hok⟩
    intro other hother
    unfold Cone at hother
    rw [reaches_of_shape hshape] at hother
    exact ⟨by omega, Reaches.head ⟨node, hnode, hmem⟩ hother.2⟩
  next =>
    refine ⟨Steps.refl _ _ _, ?_⟩
    intro h
    cases h

theorem steps_refresh (request : Request) (id : Nat) (rack : Rack) :
    Steps request (rack.Cone id) rack (rack.refresh request id).2 ∧
      ((rack.refresh request id).1 = .ok () →
        (rack.refresh request id).2.IsCurrent request.timestamp id) := by
  induction id using Nat.strongRecOn generalizing rack with
  | ind id ih =>
    have hnothing : ∀ e : Error, Steps request (rack.Cone id) rack rack ∧
        ((.error e : Except Error Unit) = .ok () → rack.IsCurrent request.timestamp id) := by
      intro e
      refine ⟨Steps.refl _ _ _, ?_⟩
      intro h
      cases h
    cases hnode : rack.nodes[id]? with
    | none =>
      rw [refresh_of_none hnode]
      exact hnothing _
    | some node =>
      cases hstale : node.isStale request.timestamp with
      | false =>
        rw [refresh_of_fresh hnode hstale]
        exact ⟨Steps.refl _ _ _, fun _ => ⟨node, hnode, hstale⟩⟩
      | true =>
        rw [refresh_of_stale hnode hstale]
        have hself : rack.Cone id id := ⟨Nat.le_refl id, Reaches.refl rack id⟩
        have htouch : Steps request (rack.Cone id) rack (rack.update id Node.touch) :=
          Steps.single hself (Step.touch hnode hstale)
        have hreads := steps_reads_of ih hnode htouch.shape_eq
        have hwide := htouch.trans (hreads.1.mono fun other => cone_of_upstream)
        split
        next => exact hnothing _
        next =>
          split
          next e next hresult =>
            rw [hresult] at hwide
            refine ⟨hwide, ?_⟩
            intro h
            cases h
          next next hresult =>
            rw [hresult] at hwide hreads
            have hcomplete := steps_complete hself (hreads.1.nodes_touched hnode) hstale
              (hreads.2 rfl)
            exact ⟨hwide.trans hcomplete.1, hcomplete.2⟩

theorem steps_reads {node : Node} (hnode : rack.nodes[id]? = some node) {current : Rack}
    (hshape : current.shape = rack.shape) :
    Steps request (rack.Upstream id) current
        (forAll (refreshBelow request id) node.device.reads current).2 ∧
      ((forAll (refreshBelow request id) node.device.reads current).1 = .ok () →
        ∀ input ∈ node.device.reads,
          (forAll (refreshBelow request id) node.device.reads current).2.IsCurrent
            request.timestamp input) :=
  steps_reads_of (fun input _ => steps_refresh request input) hnode hshape

end Rack
end PatchSynth
