import PatchSynth.Proofs.Rack.Value

/-!
This module contains pulls of nodes that are lent out while they are used. A node whose evaluation
is running is lent to it alone, and nobody can even look at it; a node whose block a running fill
holds can be looked at, but not evaluated. `Pull` follows the calls of a pull one by one, with no
bound on their depth and no look at the order of the nodes, and ends in a conflict where a node is
not to be had. `pull_iff` says that this never happens if inputs stand before the nodes that read
them and no node has a newer block than a node that it reads.
-/

namespace PatchSynth
namespace Rack

structure Loans where
  running : List Nat := []
  held : List Nat := []

inductive Outcome where
  | conflict
  | done (result : Except Error Unit) (rack : Rack)

def Outcome.andThen (act : Rack → Except Error Unit × Rack) : Outcome → Outcome
  | .done (.ok ()) rack => .done (act rack).1 (act rack).2
  | outcome => outcome

/--
Whether a node is wired to another one, directly or through others. To ask for the declared range of
a node is to look at all the nodes that it is wired to.
-/
def WiredTo (rack : Rack) : Nat → Nat → Prop :=
  Relation.TransGen fun id input => ∃ node, rack.nodes[id]? = some node ∧
    input ∈ node.device.inputs

structure Loans.Frees (loans : Loans) (rack : Rack) (id : Nat) : Prop where
  held : id ∉ loans.held
  running : ∀ other, rack.WiredTo id other → other ∉ id :: loans.running

mutual

/--
What the pull of a node comes to while others are lent out.
-/
inductive Pull (request : Request) : Loans → Nat → Rack → Outcome → Prop where
  | running {loans : Loans} {id : Nat} {rack : Rack} (hid : id ∈ loans.running) :
      Pull request loans id rack .conflict
  | absent {loans : Loans} {id : Nat} {rack : Rack} (hid : id ∉ loans.running)
      (hnode : rack.nodes[id]? = none) :
      Pull request loans id rack (.done (.error (.unwired id)) rack)
  | fresh {loans : Loans} {id : Nat} {rack : Rack} {node : Node} (hid : id ∉ loans.running)
      (hnode : rack.nodes[id]? = some node) (hfresh : node.isStale request.timestamp = false) :
      Pull request loans id rack (.done (.ok ()) rack)
  | blocked {loans : Loans} {id : Nat} {rack : Rack} {node : Node} (hid : id ∉ loans.running)
      (hnode : rack.nodes[id]? = some node) (hstale : node.isStale request.timestamp = true)
      (hfrees : ¬ loans.Frees rack id) :
      Pull request loans id rack .conflict
  | refused {loans : Loans} {id : Nat} {rack : Rack} {node : Node} {e : Error}
      (hid : id ∉ loans.running) (hnode : rack.nodes[id]? = some node)
      (hstale : node.isStale request.timestamp = true) (hfrees : loans.Frees rack id)
      (hdemands : rack.checkDemands node.device = .error e) :
      Pull request loans id rack (.done (.error e) rack)
  | fill {loans : Loans} {id : Nat} {rack : Rack} {node : Node} {outcome : Outcome}
      (hid : id ∉ loans.running) (hnode : rack.nodes[id]? = some node)
      (hstale : node.isStale request.timestamp = true) (hfrees : loans.Frees rack id)
      (hdemands : rack.checkDemands node.device = .ok ())
      (hreads : PullAll request { loans with running := id :: loans.running } node.device.reads
        (rack.update id Node.touch) outcome) :
      Pull request loans id rack (outcome.andThen (complete request id node))

inductive PullAll (request : Request) : Loans → List Nat → Rack → Outcome → Prop where
  | nil {loans : Loans} {rack : Rack} : PullAll request loans [] rack (.done (.ok ()) rack)
  | stop {loans : Loans} {input : Nat} {rest : List Nat} {rack : Rack} {outcome : Outcome}
      (hinput : Pull request loans input rack outcome)
      (hstop : ∀ next, outcome ≠ .done (.ok ()) next) :
      PullAll request loans (input :: rest) rack outcome
  | next {loans : Loans} {input : Nat} {rest : List Nat} {rack next : Rack} {outcome : Outcome}
      (hinput : Pull request loans input rack (.done (.ok ()) next))
      (hrest : PullAll request { loans with held := input :: loans.held } rest next outcome) :
      PullAll request loans (input :: rest) rack outcome

end

variable {request : Request} {loans : Loans} {rack : Rack} {id : Nat} {outcome : Outcome}

theorem WellFormed.lt_of_wiredTo (h : rack.WellFormed) {other : Nat}
    (hwired : rack.WiredTo id other) : other < id := by
  induction hwired with
  | single hfirst =>
    obtain ⟨node, hnode, hmem⟩ := hfirst
    exact h.inputs_lt hnode _ hmem
  | tail _ hlast ih =>
    obtain ⟨node, hnode, hmem⟩ := hlast
    have := h.inputs_lt hnode _ hmem
    omega

/--
Whether the nodes that are lent out do not get in the way of pulls of nodes before a bound: those
whose evaluation is running stand behind it, and those whose blocks are held need not be evaluated.
-/
structure Loans.Clear (request : Request) (loans : Loans) (rack : Rack) (bound : Nat) : Prop where
  running : ∀ other ∈ loans.running, bound ≤ other
  held : ∀ other ∈ loans.held, rack.IsCurrent request.timestamp other

namespace Loans.Clear

variable {next : Rack} {bound input : Nat}

theorem of_lt (h : Loans.Clear request loans rack bound) (hlt : input < bound) :
    Loans.Clear request loans rack (input + 1) := by
  refine ⟨?_, h.held⟩
  intro other hother
  have := h.running other hother
  omega

theorem frees (h : Loans.Clear request loans rack (id + 1)) (hrack : rack.WellFormed) {node : Node}
    (hnode : rack.nodes[id]? = some node) (hstale : node.isStale request.timestamp = true) :
    loans.Frees rack id := by
  refine ⟨?_, ?_⟩
  · intro hid
    obtain ⟨found, hfound, hfresh⟩ := h.held id hid
    rw [hnode] at hfound
    cases hfound
    rw [hfresh] at hstale
    cases hstale
  · intro other hwired hother
    have hlt := hrack.lt_of_wiredTo hwired
    obtain rfl | hother := List.mem_cons.1 hother
    · omega
    · have := h.running other hother
      omega

theorem begin (h : Loans.Clear request loans rack (id + 1)) {node : Node}
    (hnode : rack.nodes[id]? = some node) (hstale : node.isStale request.timestamp = true) :
    Loans.Clear request { loans with running := id :: loans.running } (rack.update id Node.touch)
      id := by
  refine ⟨?_, ?_⟩
  · intro other hother
    obtain rfl | hother := List.mem_cons.1 hother
    · exact Nat.le_refl _
    · have := h.running other hother
      omega
  · intro other hother
    exact (Step.touch hnode hstale).isCurrent (h.held other hother)

theorem hold {among : Nat → Prop} (h : Loans.Clear request loans rack bound)
    (hsteps : Steps request among rack next) (hcurrent : next.IsCurrent request.timestamp input) :
    Loans.Clear request { loans with held := input :: loans.held } next bound := by
  refine ⟨h.running, ?_⟩
  intro other hother
  obtain rfl | hother := List.mem_cons.1 hother
  · exact hcurrent
  · exact hsteps.isCurrent (h.held other hother)

end Loans.Clear

def Completes (request : Request) (id : Nat) : Prop :=
  ∀ (loans : Loans) (rack : Rack) (outcome : Outcome), rack.WellFormed →
    Loans.Clear request loans rack (id + 1) →
      (Pull request loans id rack outcome ↔
        outcome = .done (rack.refresh request id).1 (rack.refresh request id).2)

theorem pullAll_iff_of_completes (hbelow : ∀ input < id, Completes request input)
    (hframes : request.frames ≤ maxFrames) {inputs : List Nat}
    (hinputs : ∀ input ∈ inputs, input < id) (hrack : rack.WellFormed)
    (hclear : Loans.Clear request loans rack id) :
    PullAll request loans inputs rack outcome ↔
      outcome = .done (forAll (refreshBelow request id) inputs rack).1
        (forAll (refreshBelow request id) inputs rack).2 := by
  induction inputs generalizing loans rack with
  | nil =>
    constructor
    · intro h
      cases h
      rfl
    · rintro rfl
      exact PullAll.nil
  | cons input rest ih =>
    rw [List.forall_mem_cons] at hinputs
    obtain ⟨hlt, hrest⟩ := hinputs
    have hfirst := fun outcome => hbelow input hlt loans rack outcome hrack (hclear.of_lt hlt)
    have hnext := hrack.refresh hframes input
    obtain ⟨hsteps, hcurrent⟩ := steps_refresh request input rack
    simp only [forAll, refreshBelow, if_pos hlt]
    cases hresult : rack.refresh request input with
    | mk result next =>
      rw [hresult] at hfirst hnext hsteps hcurrent
      cases result with
      | error e =>
        constructor
        · intro h
          cases h with
          | stop hinput => exact (hfirst _).1 hinput
          | next hinput =>
            have := (hfirst _).1 hinput
            cases this
        · rintro rfl
          exact PullAll.stop ((hfirst _).2 rfl) (by simp)
      | ok _ =>
        have hlater := ih hrest hnext (hclear.hold hsteps (hcurrent rfl))
        constructor
        · intro h
          cases h with
          | stop hinput hstop => exact absurd ((hfirst _).1 hinput) (hstop _)
          | next hinput hlast =>
            have hsame := (hfirst _).1 hinput
            cases hsame
            exact hlater.1 hlast
        · intro houtcome
          exact PullAll.next ((hfirst _).2 rfl) (hlater.2 houtcome)

theorem andThen_complete {node : Node} (hnode : rack.nodes[id]? = some node)
    (hstale : node.isStale request.timestamp = true)
    (hdemands : rack.checkDemands node.device = .ok ()) :
    (Outcome.done
        (forAll (refreshBelow request id) node.device.reads (rack.update id Node.touch)).1
        (forAll (refreshBelow request id) node.device.reads (rack.update id Node.touch)).2).andThen
          (complete request id node)
      = .done (rack.refresh request id).1 (rack.refresh request id).2 := by
  rw [refresh_of_stale hnode hstale, hdemands]
  dsimp only
  cases forAll (refreshBelow request id) node.device.reads (rack.update id Node.touch) with
  | mk result next => cases result <;> rfl

theorem completes_of_below (hbelow : ∀ input < id, Completes request input)
    (hframes : request.frames ≤ maxFrames) : Completes request id := by
  intro loans rack outcome hrack hclear
  have hid : id ∉ loans.running := by
    intro hid
    have := hclear.running id hid
    omega
  have hreads : ∀ {node : Node} {outcome : Outcome}, rack.nodes[id]? = some node →
      node.isStale request.timestamp = true →
        (PullAll request { loans with running := id :: loans.running } node.device.reads
            (rack.update id Node.touch) outcome ↔
          outcome = .done
            (forAll (refreshBelow request id) node.device.reads (rack.update id Node.touch)).1
            (forAll (refreshBelow request id) node.device.reads
              (rack.update id Node.touch)).2) := by
    intro node outcome hnode hstale
    have htouched := hrack.step hframes (Step.touch hnode hstale)
    apply pullAll_iff_of_completes hbelow hframes _ htouched (hclear.begin hnode hstale)
    intro input hmem
    exact hrack.inputs_lt hnode input (Device.mem_inputs_of_mem_reads hmem)
  constructor
  · intro h
    cases h with
    | running hrunning => exact absurd hrunning hid
    | absent _ hnode => rw [refresh_of_none hnode]
    | fresh _ hnode hfresh => rw [refresh_of_fresh hnode hfresh]
    | blocked _ hnode hstale hfrees => exact absurd (hclear.frees hrack hnode hstale) hfrees
    | refused _ hnode hstale _ hdemands => rw [refresh_of_stale hnode hstale, hdemands]
    | fill _ hnode hstale _ hdemands hall =>
      rw [(hreads hnode hstale).1 hall, andThen_complete hnode hstale hdemands]
  · rintro rfl
    cases hnode : rack.nodes[id]? with
    | none =>
      rw [refresh_of_none hnode]
      exact Pull.absent hid hnode
    | some node =>
      cases hstale : node.isStale request.timestamp with
      | false =>
        rw [refresh_of_fresh hnode hstale]
        exact Pull.fresh hid hnode hstale
      | true =>
        have hfrees := hclear.frees hrack hnode hstale
        cases hdemands : rack.checkDemands node.device with
        | error e =>
          rw [refresh_of_stale hnode hstale, hdemands]
          exact Pull.refused hid hnode hstale hfrees hdemands
        | ok _ =>
          rw [← andThen_complete hnode hstale hdemands]
          exact Pull.fill hid hnode hstale hfrees hdemands ((hreads hnode hstale).2 rfl)

theorem completes (hframes : request.frames ≤ maxFrames) (id : Nat) : Completes request id := by
  induction id using Nat.strongRecOn with
  | ind id ih => exact completes_of_below ih hframes

theorem pull_of_cycle {node : Node} (hnode : rack.nodes[id]? = some node)
    (hstale : node.isStale request.timestamp = true) (hcycle : rack.WiredTo id id) :
    Pull request {} id rack .conflict := by
  apply Pull.blocked (by simp) hnode hstale
  intro hfrees
  exact hfrees.running id hcycle (List.mem_cons_self ..)

theorem pull_iff (hrack : rack.WellFormed) (hframes : request.frames ≤ maxFrames) :
    Pull request {} id rack outcome ↔
      outcome = .done (rack.refresh request id).1 (rack.refresh request id).2 := by
  apply completes hframes id {} rack outcome hrack
  refine ⟨?_, ?_⟩
  · intro other hother
    cases hother
  · intro other hother
    cases hother

end Rack
end PatchSynth
