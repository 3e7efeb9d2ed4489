import PatchSynth.Proofs.Rack.WellFormed

/-!
This module contains the value of a pull: the node that a pull leaves behind, as a function of the
rack before it. The function asks for every input anew and keeps nothing in between.
`refresh_eq_pulled` says that a pull, which computes a shared node only once, comes to the same
result.
-/

namespace PatchSynth

def firstError {α : Type} : List (Except Error α) → Except Error Unit
  | [] => .ok ()
  | .ok _ :: rest => firstError rest
  | .error e :: _ => .error e

theorem firstError_eq_ok_iff {α : Type} {results : List (Except Error α)} :
    firstError results = .ok () ↔ ∀ result ∈ results, ∃ value, result = .ok value := by
  induction results with
  | nil => simp [firstError]
  | cons result rest ih =>
    cases result with
    | error e => simp [firstError]
    | ok value => simp [firstError, ih]

theorem firstError_map_congr {ι α β : Type} {inputs : List ι} {f : ι → Except Error α}
    {g : ι → Except Error β}
    (h : ∀ input ∈ inputs, (f input).map (fun _ => ()) = (g input).map fun _ => ()) :
    firstError (inputs.map f) = firstError (inputs.map g) := by
  induction inputs with
  | nil => rfl
  | cons input rest ih =>
    have hhead := h input (List.mem_cons_self ..)
    have hrest := ih fun input hmem => h input (List.mem_cons_of_mem _ hmem)
    cases hf : f input with
    | error e =>
      cases hg : g input with
      | error e' =>
        simp only [hf, hg, Except.map, Except.error.injEq] at hhead
        simp [firstError, hf, hg, hhead]
      | ok => simp [hf, hg, Except.map] at hhead
    | ok value =>
      cases hg : g input with
      | error e' => simp [hf, hg, Except.map] at hhead
      | ok => simpa [firstError, hf, hg] using hrest

namespace Rack

def feedFrom (rack : Rack) (frames : Nat) (pull : Nat → Except Error Node) (input : Nat) : Feed :=
  { range := rack.rangeOf input
    block :=
      match pull input with
      | .ok node => node.block frames
      | .error _ => #[] }

def evaluated (request : Request) (rack : Rack) (pull : Nat → Except Error Node) (node : Node) :
    Except Error Node := do
  rack.checkDemands node.device
  firstError (node.device.reads.map pull)
  let result ← (node.device.map (rack.feedFrom request.frames pull)).fill request node.phase
  ((node.touch.store request.timestamp result).recorded request.frames).1
  (node.store request.timestamp result).check request.frames
  return Step.filled request result node.touch

def pulled (request : Request) (rack : Rack) (id : Nat) : Except Error Node :=
  match rack.nodes[id]? with
  | none => .error (.unwired id)
  | some node =>
    if node.isStale request.timestamp then
      let pull (input : Nat) : Except Error Node :=
        if _h : input < id then pulled request rack input else .error (.unwired input)
      rack.evaluated request pull node
    else
      .ok node
termination_by id

def pulledBelow (request : Request) (rack : Rack) (id input : Nat) : Except Error Node :=
  if input < id then rack.pulled request input else .error (.unwired input)

theorem pulled_eq (request : Request) (rack : Rack) (id : Nat) :
    rack.pulled request id =
      match rack.nodes[id]? with
      | none => .error (.unwired id)
      | some node =>
        if node.isStale request.timestamp then
          rack.evaluated request (rack.pulledBelow request id) node
        else
          .ok node := by
  rw [pulled]
  rfl

variable {request : Request} {rack next base current : Rack} {id : Nat} {node : Node}

theorem pulledBelow_of_lt {input : Nat} (h : input < id) :
    rack.pulledBelow request id input = rack.pulled request input :=
  if_pos h

theorem lt_of_pulledBelow {input : Nat} {read : Node}
    (h : rack.pulledBelow request id input = .ok read) : input < id := by
  unfold pulledBelow at h
  split at h
  next hlt => exact hlt
  next => cases h

theorem pulled_of_stale (hnode : rack.nodes[id]? = some node)
    (hstale : node.isStale request.timestamp = true) :
    rack.pulled request id = rack.evaluated request (rack.pulledBelow request id) node := by
  rw [pulled_eq, hnode]
  simp [hstale]

theorem pulled_of_fresh (hnode : rack.nodes[id]? = some node)
    (hfresh : node.isStale request.timestamp = false) : rack.pulled request id = .ok node := by
  rw [pulled_eq, hnode]
  simp [hfresh]

theorem evaluated_eq_ok_iff {pull : Nat → Except Error Node} {value : Node} :
    rack.evaluated request pull node = .ok value ↔
      rack.checkDemands node.device = .ok () ∧
      (∀ input ∈ node.device.reads, ∃ read, pull input = .ok read) ∧
      ∃ result : Fill,
        (node.device.map (rack.feedFrom request.frames pull)).fill request node.phase = .ok result ∧
        ((node.touch.store request.timestamp result).recorded request.frames).1 = .ok () ∧
        (node.store request.timestamp result).check request.frames = .ok () ∧
        value = Step.filled request result node.touch := by
  unfold evaluated
  cases hdemands : rack.checkDemands node.device with
  | error e => simp [bind, Except.bind]
  | ok _ =>
    cases hreads : firstError (node.device.reads.map pull) with
    | error e =>
      have hnot : ¬ ∀ input ∈ node.device.reads, ∃ read, pull input = .ok read := by
        intro hall
        have : firstError (node.device.reads.map pull) = .ok () := by
          rw [firstError_eq_ok_iff]
          intro result hmem
          obtain ⟨input, hinput, rfl⟩ := List.mem_map.1 hmem
          exact hall input hinput
        rw [hreads] at this
        cases this
      simp [bind, Except.bind, hnot]
    | ok _ =>
      rw [firstError_eq_ok_iff] at hreads
      have hall : ∀ input ∈ node.device.reads, ∃ read, pull input = .ok read :=
        fun input hmem => hreads _ (List.mem_map_of_mem hmem)
      cases hfill :
        (node.device.map (rack.feedFrom request.frames pull)).fill request node.phase with
      | error e => simp [bind, Except.bind]
      | ok result =>
        cases hrecorded :
          ((node.touch.store request.timestamp result).recorded request.frames).1 with
        | error e => simp [bind, Except.bind, hrecorded]
        | ok _ =>
          cases hcheck : (node.store request.timestamp result).check request.frames with
          | error e => simp [bind, Except.bind, hrecorded, hcheck]
          | ok _ =>
            simp only [bind, Except.bind, hrecorded, hcheck, pure, Except.pure]
            constructor
            · intro h
              cases h
              exact ⟨trivial, hall, result, rfl, hrecorded, hcheck, rfl⟩
            · rintro ⟨-, -, _, hresult, -, -, rfl⟩
              cases hresult
              rfl

theorem evaluated_of_check {pull : Nat → Except Error Node} {result : Fill} {e : Error}
    (hdemands : rack.checkDemands node.device = .ok ())
    (hreads : ∀ input ∈ node.device.reads, ∃ read, pull input = .ok read)
    (hfill : (node.device.map (rack.feedFrom request.frames pull)).fill request node.phase
      = .ok result)
    (hrecorded : ((node.touch.store request.timestamp result).recorded request.frames).1 = .ok ())
    (hcheck : (node.store request.timestamp result).check request.frames = .error e) :
    rack.evaluated request pull node = .error e := by
  have hfirst : firstError (node.device.reads.map pull) = .ok () := by
    rw [firstError_eq_ok_iff]
    simpa using hreads
  simp only [evaluated, hdemands, hfirst, hfill, hrecorded, hcheck, bind, Except.bind]

theorem isStale_of_pulled (h : rack.pulled request id = .ok node) :
    node.isStale request.timestamp = false := by
  rw [pulled_eq] at h
  split at h
  next => cases h
  next old hold =>
    split at h
    next =>
      rw [evaluated_eq_ok_iff] at h
      obtain ⟨-, -, result, -, -, -, rfl⟩ := h
      exact isStale_filled request result old.touch
    next hfresh =>
      cases h
      simpa using hfresh

def Agrees (request : Request) (base current : Rack) (id : Nat) : Prop :=
  current.nodes[id]? = base.nodes[id]? ∨
    ∃ node, base.pulled request id = .ok node ∧ current.nodes[id]? = some node

theorem Agrees.pulled (h : Agrees request base current id)
    (hcurrent : current.IsCurrent request.timestamp id) :
    ∃ node, base.pulled request id = .ok node ∧ current.nodes[id]? = some node := by
  obtain hsame | hvalue := h
  · -- A node that was current before the pull is its own value.
    obtain ⟨node, hnode, hfresh⟩ := hcurrent
    rw [hsame] at hnode
    exact ⟨node, pulled_of_fresh hnode hfresh, by rw [hsame, hnode]⟩
  · exact hvalue

theorem fst_forAll {act : Nat → Rack → Except Error Unit × Rack} {pull : Nat → Except Error Node}
    {inputs : List Nat} {P : Rack → Prop}
    (hact : ∀ input ∈ inputs, ∀ rack, P rack →
      (act input rack).1 = (pull input).map (fun _ => ()) ∧
        ((act input rack).1 = .ok () → P (act input rack).2))
    (hrack : P rack) :
    (forAll act inputs rack).1 = firstError (inputs.map pull) ∧
      ((forAll act inputs rack).1 = .ok () → P (forAll act inputs rack).2) := by
  induction inputs generalizing rack with
  | nil => exact ⟨rfl, fun _ => hrack⟩
  | cons input rest ih =>
    obtain ⟨hfst, hsnd⟩ := hact input (List.mem_cons_self ..) rack hrack
    unfold forAll
    split
    next e next hresult =>
      rw [hresult] at hfst
      constructor
      · cases hpull : pull input with
        | error e' =>
          simp only [hpull, Except.map, Except.error.injEq] at hfst
          simp [firstError, hpull, hfst]
        | ok value => simp [hpull, Except.map] at hfst
      · intro h
        cases h
    next next hresult =>
      rw [hresult] at hfst hsnd
      obtain ⟨hrest, hlast⟩ := ih (fun input hmem => hact input (List.mem_cons_of_mem _ hmem))
        (hsnd rfl)
      refine ⟨?_, hlast⟩
      rw [hrest]
      cases hpull : pull input with
      | error e' => simp [hpull, Except.map] at hfst
      | ok value => simp [firstError, hpull]

theorem fst_complete {touched : Node} (hnode : rack.nodes[id]? = some touched) :
    (complete request id node rack).1 =
      ((node.device.map (rack.feed request.frames)).fill request node.phase).bind fun result =>
        ((touched.store request.timestamp result).recorded request.frames).1.bind fun _ =>
          (node.store request.timestamp result).check request.frames := by
  unfold complete
  cases (node.device.map (rack.feed request.frames)).fill request node.phase with
  | error e => rfl
  | ok result =>
    have hstored : (rack.update id (·.store request.timestamp result)).nodes[id]?
        = some (touched.store request.timestamp result) := by
      rw [getElem?_update, if_pos rfl, hnode]
      rfl
    have hfst := fst_recordBlock hstored request.frames
    simp only [Except.bind]
    rw [← hfst]
    split
    next hblock => simp [hblock]
    next hblock => simp [hblock]

theorem fill_of_agrees (hshape : current.shape = base.shape) {pull : Nat → Except Error Node}
    (device : Device Nat) (phase : Float32)
    (hreads : ∀ input ∈ device.reads, ∃ read, pull input = .ok read ∧
      current.nodes[input]? = some read) :
    (device.map (current.feed request.frames)).fill request phase
      = (device.map (base.feedFrom request.frames pull)).fill request phase := by
  apply Device.fill_map_congr
  · intro input hmem
    simp only [feed, feedFrom, rangeOf_of_shape hshape]
  · intro input hmem
    obtain ⟨read, hpull, hread⟩ := hreads input hmem
    simp only [feed, feedFrom, blockOf, hpull, hread]

theorem complete_of_agrees (hshape : next.shape = base.shape) {pull : Nat → Except Error Node}
    (hdemands : base.checkDemands node.device = .ok ())
    (hnode : next.nodes[id]? = some node.touch)
    (hreads : ∀ input ∈ node.device.reads, ∃ read, pull input = .ok read ∧
      next.nodes[input]? = some read) :
    (complete request id node next).1 = (base.evaluated request pull node).map (fun _ => ()) ∧
      ((complete request id node next).1 = .ok () → ∃ value,
        base.evaluated request pull node = .ok value ∧
          (complete request id node next).2.nodes[id]? = some value) := by
  have hok : firstError (node.device.reads.map pull) = .ok () := by
    rw [firstError_eq_ok_iff]
    intro result hmem
    obtain ⟨input, hinput, rfl⟩ := List.mem_map.1 hmem
    obtain ⟨read, hread, -⟩ := hreads input hinput
    exact ⟨read, hread⟩
  rw [fst_complete hnode, snd_complete]
  unfold evaluated
  rw [hdemands, hok, fill_of_agrees hshape node.device node.phase hreads]
  simp only [bind, Except.bind]
  cases (node.device.map (base.feedFrom request.frames pull)).fill request node.phase with
  | error e =>
    refine ⟨rfl, ?_⟩
    intro h
    cases h
  | ok result =>
    dsimp only
    cases ((node.touch.store request.timestamp result).recorded request.frames).1 with
    | error e =>
      refine ⟨rfl, ?_⟩
      intro h
      cases h
    | ok _ =>
      dsimp only
      cases (node.store request.timestamp result).check request.frames with
      | error e =>
        refine ⟨rfl, ?_⟩
        intro h
        cases h
      | ok _ =>
        refine ⟨rfl, ?_⟩
        intro _
        refine ⟨Step.filled request result node.touch, rfl, ?_⟩
        rw [Step.nodes_fill hnode, if_pos rfl]

theorem Agrees.of_nodes_eq (h : Agrees request base current id)
    (hnodes : next.nodes[id]? = current.nodes[id]?) : Agrees request base next id := by
  unfold Agrees
  rw [hnodes]
  exact h

/--
Whether a pull in the middle of another one comes to the value that the node had at the start of the
outer one.
-/
def Follows (request : Request) (base : Rack) (id : Nat) : Prop :=
  ∀ current : Rack, current.shape = base.shape →
    (∀ other ≤ id, Agrees request base current other) →
    (current.refresh request id).1 = (base.pulled request id).map (fun _ => ()) ∧
      ((current.refresh request id).1 = .ok () →
        ∀ other ≤ id, Agrees request base (current.refresh request id).2 other)

theorem refreshBelow_of_agrees (hfollows : ∀ input < id, Follows request base input)
    (input : Nat) (hshape : current.shape = base.shape)
    (hagrees : ∀ other < id, Agrees request base current other) :
    (refreshBelow request id input current).1
        = (base.pulledBelow request id input).map (fun _ => ()) ∧
      ((refreshBelow request id input current).1 = .ok () →
        (refreshBelow request id input current).2.shape = base.shape ∧
          ∀ other < id, Agrees request base (refreshBelow request id input current).2 other) := by
  unfold refreshBelow pulledBelow
  by_cases hlt : input < id
  · simp only [if_pos hlt]
    obtain ⟨hfst, hsnd⟩ := hfollows input hlt current hshape
      fun other hle => hagrees other (by omega)
    have hsteps := (steps_refresh request input current).1
    refine ⟨hfst, fun hok => ⟨by rw [hsteps.shape_eq, hshape], ?_⟩⟩
    intro other hother
    by_cases hle : other ≤ input
    · exact hsnd hok other hle
    · apply (hagrees other hother).of_nodes_eq
      apply hsteps.nodes_of_not_among
      intro hcone
      exact hle hcone.1
  · simp only [if_neg hlt]
    refine ⟨rfl, ?_⟩
    intro h
    cases h

theorem follows_of_stale (hfollows : ∀ input < id, Follows request base input)
    (hshape : current.shape = base.shape)
    (hagrees : ∀ other ≤ id, Agrees request base current other)
    (hbase : base.nodes[id]? = some node) (hsame : current.nodes[id]? = some node)
    (hstale : node.isStale request.timestamp = true) :
    (current.refresh request id).1 = (base.pulled request id).map (fun _ => ()) ∧
      ((current.refresh request id).1 = .ok () →
        ∀ other ≤ id, Agrees request base (current.refresh request id).2 other) := by
  rw [pulled_of_stale hbase hstale, refresh_of_stale hsame hstale, checkDemands_of_shape hshape]
  cases hdemands : base.checkDemands node.device with
  | error e =>
    refine ⟨by simp [evaluated, hdemands, bind, Except.bind, Except.map], ?_⟩
    intro h
    cases h
  | ok _ =>
    -- Between two reads every node below has its value or waits for it still.
    have htouched : (current.update id Node.touch).shape = base.shape := by
      rw [shape_touch, hshape]
    have hbelow : ∀ other < id, Agrees request base (current.update id Node.touch) other := by
      intro other hlt
      apply (hagrees other (by omega)).of_nodes_eq
      rw [getElem?_update, if_neg (by omega)]
    have hact : ∀ input ∈ node.device.reads, ∀ rack : Rack,
        (rack.shape = base.shape ∧ ∀ other < id, Agrees request base rack other) →
        (refreshBelow request id input rack).1
            = (base.pulledBelow request id input).map (fun _ => ()) ∧
          ((refreshBelow request id input rack).1 = .ok () →
            ((refreshBelow request id input rack).2.shape = base.shape ∧
              ∀ other < id, Agrees request base (refreshBelow request id input rack).2 other)) :=
      fun input _ rack hrack => refreshBelow_of_agrees hfollows input hrack.1 hrack.2
    obtain ⟨hfst, hsnd⟩ := fst_forAll hact ⟨htouched, hbelow⟩
    obtain ⟨hsteps, hcurrent⟩ := steps_reads hbase htouched
    dsimp only
    split
    next e next hresult =>
      rw [hresult] at hfst
      refine ⟨by simp [evaluated, hdemands, bind, Except.bind, Except.map, ← hfst], ?_⟩
      intro h
      cases h
    next next hresult =>
      rw [hresult] at hfst hsnd hsteps hcurrent
      obtain ⟨hlater, hlaterBelow⟩ := hsnd rfl
      have hnext : next.nodes[id]? = some node.touch := hsteps.nodes_touched hsame
      have hreads : ∀ input ∈ node.device.reads, ∃ read,
          base.pulledBelow request id input = .ok read ∧ next.nodes[input]? = some read := by
        intro input hmem
        obtain ⟨read, hread⟩ := firstError_eq_ok_iff.1 hfst.symm _ (List.mem_map_of_mem hmem)
        have hlt := lt_of_pulledBelow hread
        rw [pulledBelow_of_lt hlt]
        exact (hlaterBelow input hlt).pulled (hcurrent rfl input hmem)
      obtain ⟨hcomplete, hvalue⟩ := complete_of_agrees hlater hdemands hnext hreads
      refine ⟨hcomplete, ?_⟩
      intro hok other hle
      obtain ⟨value, hvalue, hnode⟩ := hvalue hok
      by_cases hid : other = id
      · subst hid
        exact Or.inr ⟨value, by rw [pulled_of_stale hbase hstale, hvalue], hnode⟩
      · apply (hlaterBelow other (by omega)).of_nodes_eq
        have hself : (id = ·) id := rfl
        have hlast := (steps_complete hself hnext hstale (hcurrent rfl)).1
        exact hlast.nodes_of_not_among fun heq => hid heq.symm

theorem follows (request : Request) (base : Rack) (id : Nat) : Follows request base id := by
  induction id using Nat.strongRecOn with
  | ind id ih =>
    intro current hshape hagrees
    obtain hsame | ⟨value, hvalue, hnode⟩ := hagrees id (Nat.le_refl id)
    · cases hbase : base.nodes[id]? with
      | none =>
        rw [hbase] at hsame
        rw [refresh_of_none hsame, pulled_eq, hbase]
        refine ⟨rfl, ?_⟩
        intro h
        cases h
      | some node =>
        rw [hbase] at hsame
        cases hstale : node.isStale request.timestamp with
        | false =>
          rw [pulled_of_fresh hbase hstale, refresh_of_fresh hsame hstale]
          exact ⟨rfl, fun _ => hagrees⟩
        | true => exact follows_of_stale ih hshape hagrees hbase hsame hstale
    · -- The node was pulled before in the same pull.
      rw [hvalue, refresh_of_fresh hnode (isStale_of_pulled hvalue)]
      exact ⟨rfl, fun _ => hagrees⟩

theorem agrees_refresh (h : (rack.refresh request id).1 = .ok ()) {other : Nat} (hle : other ≤ id) :
    Agrees request rack (rack.refresh request id).2 other :=
  (follows request rack id rack rfl fun _ _ => Or.inl rfl).2 h other hle

theorem refresh_eq_pulled (request : Request) (rack : Rack) (id : Nat) :
    (rack.refresh request id).1 = (rack.pulled request id).map fun _ => () :=
  (follows request rack id rack rfl fun _ _ => Or.inl rfl).1

theorem exists_pulled_of_refresh (h : (rack.refresh request id).1 = .ok ()) :
    ∃ value, rack.pulled request id = .ok value ∧
      (rack.refresh request id).2.nodes[id]? = some value := by
  have hagrees := agrees_refresh h (Nat.le_refl id)
  exact hagrees.pulled ((steps_refresh request id rack).2 h)

theorem nodes_refresh_of_not_reaches {other : Nat} (h : ¬ rack.Reaches id other) :
    (rack.refresh request id).2.nodes[other]? = rack.nodes[other]? := by
  apply (steps_refresh request id rack).1.nodes_of_not_among
  intro hcone
  exact h hcone.2

theorem shape_refresh (request : Request) (rack : Rack) (id : Nat) :
    (rack.refresh request id).2.shape = rack.shape :=
  (steps_refresh request id rack).1.shape_eq

namespace WellFormed

theorem le_of_reaches (h : rack.WellFormed) {other : Nat} (hreaches : rack.Reaches id other) :
    other ≤ id := by
  induction hreaches with
  | refl => exact Nat.le_refl id
  | tail _ hlast ih =>
    obtain ⟨node, hnode, hmem⟩ := hlast
    have := h.inputs_lt hnode _ (Device.mem_inputs_of_mem_reads hmem)
    omega

theorem isCurrent_of_reaches (h : rack.WellFormed) {timestamp other : Nat}
    (hcurrent : rack.IsCurrent timestamp id) (hreaches : rack.Reaches id other) :
    rack.IsCurrent timestamp other := by
  induction hreaches with
  | refl => exact hcurrent
  | tail _ hlast ih =>
    obtain ⟨node, hnode, hmem⟩ := hlast
    obtain ⟨found, hfound, hfresh⟩ := ih
    rw [hnode] at hfound
    cases hfound
    exact h.clocks hnode _ hmem timestamp hfresh

theorem last_of_reaches (h : rack.WellFormed) {other last : Nat} {node : Node}
    (hreaches : rack.Reaches id other) (hnode : rack.nodes[id]? = some node)
    (hlast : node.last = some last) :
    ∃ read newer, rack.nodes[other]? = some read ∧ read.last = some newer ∧ last ≤ newer := by
  have hcurrent : rack.IsCurrent last id :=
    ⟨node, hnode, Node.isStale_eq_false_iff.2 ⟨last, hlast, Nat.le_refl _⟩⟩
  obtain ⟨read, hread, hfresh⟩ := h.isCurrent_of_reaches hcurrent hreaches
  obtain ⟨newer, hnewer, hle⟩ := Node.isStale_eq_false_iff.1 hfresh
  exact ⟨read, newer, hread, hnewer, hle⟩

theorem exists_pulled_of_reaches (h : rack.WellFormed) (hframes : request.frames ≤ maxFrames)
    (hok : (rack.refresh request id).1 = .ok ()) {other : Nat} (hreaches : rack.Reaches id other) :
    ∃ value, rack.pulled request other = .ok value ∧
      (rack.refresh request id).2.nodes[other]? = some value := by
  have hnext := h.refresh hframes id
  have hcurrent : (rack.refresh request id).2.IsCurrent request.timestamp other := by
    apply hnext.isCurrent_of_reaches ((steps_refresh request id rack).2 hok)
    rw [reaches_of_shape (shape_refresh request rack id)]
    exact hreaches
  have hagrees := agrees_refresh hok (h.le_of_reaches hreaches)
  exact hagrees.pulled hcurrent

end WellFormed

end Rack
end PatchSynth
