import PatchSynth.Proofs.Rack.Filling

/-!
This module contains that a call changes every node completely or not at all, be it that the call
succeeds or that it fails in the middle. A node gets a new block only if it accepts the declared
ranges of its inputs and if all that it reads has a value.
-/

namespace PatchSynth
namespace Rack

variable {request : Request} {base current next : Rack} {id root : Nat} {node : Node}

def Earned (request : Request) (base current : Rack) (id : Nat) : Prop :=
  ∀ node, base.nodes[id]? = some node → node.isStale request.timestamp = true →
    current.IsCurrent request.timestamp id →
      base.checkDemands node.device = .ok () ∧
        ∀ input ∈ node.device.reads, ∃ read, base.pulled request input = .ok read

theorem Agrees.earned (h : Agrees request base current id) : Earned request base current id := by
  intro node hnode hstale hcurrent
  obtain ⟨value, hvalue, -⟩ := h.pulled hcurrent
  rw [pulled_of_stale hnode hstale, evaluated_eq_ok_iff] at hvalue
  obtain ⟨hdemands, hreads, -⟩ := hvalue
  refine ⟨hdemands, ?_⟩
  intro input hmem
  obtain ⟨read, hread⟩ := hreads input hmem
  rw [pulledBelow_of_lt (lt_of_pulledBelow hread)] at hread
  exact ⟨read, hread⟩

theorem forAll_cases {act : Nat → Rack → Except Error Unit × Rack} {inputs : List Nat}
    {P : Rack → Prop}
    (hact : ∀ input ∈ inputs, ∀ rack, P rack → (act input rack).1 = .ok () →
      P (act input rack).2)
    (hbase : P base) :
    ((forAll act inputs base).1 = .ok () ∧ P (forAll act inputs base).2) ∨
      ((forAll act inputs base).1 ≠ .ok () ∧ ∃ input ∈ inputs, ∃ current, P current ∧
        (forAll act inputs base).2 = (act input current).2) := by
  induction inputs generalizing base with
  | nil => exact Or.inl ⟨rfl, hbase⟩
  | cons input rest ih =>
    unfold forAll
    split
    next e next hresult =>
      refine Or.inr ⟨by simp, input, List.mem_cons_self .., base, hbase, ?_⟩
      rw [hresult]
    next next hresult =>
      have hnext := hact input (List.mem_cons_self ..) base hbase (congrArg Prod.fst hresult)
      rw [hresult] at hnext
      obtain hok | ⟨herror, other, hmem, hcurrent⟩ :=
        ih (fun input hmem => hact input (List.mem_cons_of_mem _ hmem)) hnext
      · exact Or.inl hok
      · exact Or.inr ⟨herror, other, List.mem_cons_of_mem _ hmem, hcurrent⟩

theorem earned_refreshBelow
    (hbelow : ∀ input < root, ∀ current : Rack, current.shape = base.shape →
      (∀ other ≤ input, Agrees request base current other) →
      ∀ other ≤ input, Earned request base (current.refresh request input).2 other)
    (hshape : current.shape = base.shape)
    (hagrees : ∀ other < root, Agrees request base current other) {input : Nat} (hlt : id < root) :
    Earned request base (refreshBelow request root input current).2 id := by
  unfold refreshBelow
  split
  next hinput =>
    by_cases hle : id ≤ input
    · exact hbelow input hinput current hshape (fun other hle => hagrees other (by omega)) id hle
    · apply ((hagrees id hlt).of_nodes_eq _).earned
      apply (steps_refresh request input current).1.nodes_of_not_among
      intro hcone
      exact hle hcone.1
  next => exact (hagrees id hlt).earned

theorem earned_of_stale (h : base.WellFormed)
    (hbelow : ∀ input < root, ∀ current : Rack, current.shape = base.shape →
      (∀ other ≤ input, Agrees request base current other) →
      ∀ other ≤ input, Earned request base (current.refresh request input).2 other)
    (hshape : current.shape = base.shape)
    (hagrees : ∀ other ≤ root, Agrees request base current other)
    (hnode : current.nodes[root]? = some node)
    (hstale : node.isStale request.timestamp = true) :
    ∀ other ≤ root, Earned request base (current.refresh request root).2 other := by
  have hbase : base.nodes[root]? = some node := by
    obtain hsame | ⟨value, hvalue, hvalueNode⟩ := hagrees root (Nat.le_refl root)
    · rw [← hsame, hnode]
    · rw [hnode] at hvalueNode
      cases hvalueNode
      rw [isStale_of_pulled hvalue] at hstale
      cases hstale
  rw [refresh_of_stale hnode hstale]
  split
  next => exact fun other hle => (hagrees other hle).earned
  next hdemands =>
    rw [checkDemands_of_shape hshape] at hdemands
    have htouched : (current.update root Node.touch).shape = base.shape := by
      rw [shape_touch, hshape]
    have hstart : ∀ other < root, Agrees request base (current.update root Node.touch) other := by
      intro other hlt
      apply (hagrees other (by omega)).of_nodes_eq
      rw [getElem?_update, if_neg (by omega)]
    have hact : ∀ input ∈ node.device.reads, ∀ rack : Rack,
        (rack.shape = base.shape ∧ ∀ other < root, Agrees request base rack other) →
        (refreshBelow request root input rack).1 = .ok () →
          (refreshBelow request root input rack).2.shape = base.shape ∧
            ∀ other < root, Agrees request base (refreshBelow request root input rack).2 other :=
      fun input _ rack hrack =>
        (refreshBelow_of_agrees (fun input _ => follows request base input) input hrack.1
          hrack.2).2
    have hreads := forAll_cases hact ⟨htouched, hstart⟩
    obtain ⟨hsteps, hcurrent⟩ := steps_reads hbase htouched
    have hself : (forAll (refreshBelow request root) node.device.reads
        (current.update root Node.touch)).2.nodes[root]? = some node.touch :=
      hsteps.nodes_touched hnode
    split
    next e next hresult =>
      rw [hresult] at hreads hself
      obtain ⟨hok, -⟩ | ⟨-, input, -, before, ⟨hbefore, hagreesBefore⟩, hnext⟩ := hreads
      · cases hok
      · dsimp only at hnext
        intro other hle
        by_cases hid : other = root
        · -- The node itself has got no block, because the pull did not come that far.
          subst hid
          intro _ _ _ hcurrentNow
          obtain ⟨now, hnow, hfresh⟩ := hcurrentNow
          rw [hself] at hnow
          cases hnow
          exact absurd (hfresh.symm.trans hstale) (by simp)
        · rw [hnext]
          exact earned_refreshBelow hbelow hbefore hagreesBefore (by omega)
    next next hresult =>
      rw [hresult] at hreads hself hcurrent
      obtain ⟨-, hnext, hagreesNext⟩ | ⟨herror, -⟩ := hreads
      · intro other hle
        by_cases hid : other = root
        · subst hid
          intro found hfound _ _
          rw [hbase] at hfound
          cases hfound
          refine ⟨hdemands, ?_⟩
          intro input hmem
          have hlt := h.inputs_lt hbase input (Device.mem_inputs_of_mem_reads hmem)
          obtain ⟨read, hread, -⟩ := (hagreesNext input hlt).pulled (hcurrent rfl input hmem)
          exact ⟨read, hread⟩
        · apply ((hagreesNext other (by omega)).of_nodes_eq _).earned
          have hamong : (root = ·) root := rfl
          have hlast := (steps_complete hamong hself hstale (hcurrent rfl)).1
          exact hlast.nodes_of_not_among fun heq => hid heq.symm
      · exact absurd rfl herror

theorem earned_of_agrees (h : base.WellFormed) (hshape : current.shape = base.shape)
    (hagrees : ∀ other ≤ root, Agrees request base current other) :
    ∀ other ≤ root, Earned request base (current.refresh request root).2 other := by
  induction root using Nat.strongRecOn generalizing current with
  | ind root ih =>
    have hrefused : ∀ other ≤ root, Earned request base current other :=
      fun other hle => (hagrees other hle).earned
    cases hnode : current.nodes[root]? with
    | none =>
      rw [refresh_of_none hnode]
      exact hrefused
    | some node =>
      cases hstale : node.isStale request.timestamp with
      | false =>
        rw [refresh_of_fresh hnode hstale]
        exact hrefused
      | true =>
        apply earned_of_stale h _ hshape hagrees hnode hstale
        intro input hlt current hshape hagrees
        exact ih input hlt hshape hagrees

theorem earned_refresh (h : base.WellFormed) (request : Request) (root id : Nat) :
    Earned request base (base.refresh request root).2 id := by
  by_cases hle : id ≤ root
  · exact earned_of_agrees h rfl (fun _ _ => Or.inl rfl) id hle
  · apply Agrees.earned
    apply Or.inl
    apply (steps_refresh request root base).1.nodes_of_not_among
    intro hcone
    exact hle hcone.1

theorem nodes_output_clamped (request : Request) (root : Nat) (rack : Rack) :
    (rack.output request root).2 = (rack.refresh request.clamped root).2 :=
  nodes_output request root rack

theorem fst_output_clamped (request : Request) (root : Nat) (rack : Rack) :
    (rack.output request root).1 = (rack.refresh request.clamped root).1.map fun _ =>
      (rack.refresh request.clamped root).2.blockOf root request.clamped.frames :=
  fst_output request root rack

theorem fst_output_eq_pulled (request : Request) (root : Nat) (rack : Rack) :
    (rack.output request root).1 = (rack.pulled request.clamped root).map fun value =>
      value.block request.clamped.frames := by
  rw [fst_output_clamped]
  cases hrefresh : (rack.refresh request.clamped root).1 with
  | error e =>
    rw [refresh_eq_pulled] at hrefresh
    cases hpulled : rack.pulled request.clamped root with
    | error e' =>
      rw [hpulled] at hrefresh
      cases hrefresh
      rfl
    | ok value =>
      rw [hpulled] at hrefresh
      cases hrefresh
  | ok _ =>
    obtain ⟨value, hvalue, hnode⟩ := exists_pulled_of_refresh hrefresh
    simp only [hvalue, Except.map, blockOf, hnode]

theorem fst_output_eq_error_iff {e : Error} :
    (base.output request id).1 = .error e ↔ base.pulled request.clamped id = .error e := by
  rw [fst_output_eq_pulled]
  cases base.pulled request.clamped id <;> simp [Except.map]

theorem exists_output_of_pulled {value : Node} (h : base.pulled request.clamped id = .ok value) :
    ∃ block, (base.output request id).1 = .ok block := by
  rw [fst_output_eq_pulled, h]
  exact ⟨_, rfl⟩

theorem refresh_of_output {block : Block} (h : (base.output request id).1 = .ok block) :
    (base.refresh request.clamped id).1 = .ok () := by
  rw [fst_output_clamped] at h
  cases hrefresh : (base.refresh request.clamped id).1 with
  | ok _ => rfl
  | error e =>
    rw [hrefresh] at h
    cases h

/--
A call leaves every node as it was or fills it once, whether it succeeds or fails. The filled nodes
have the block that their device computes from the blocks of their inputs, and their recorders have
gained just this block. A node that refuses its inputs, or one of whose inputs fails, is as it was.
A call that succeeds has filled all that it had to.
-/
theorem output_atomic {rack : Rack} (h : rack.Reachable) (request : Request) (root : Nat) :
    ∃ filled,
      HasFilled request.clamped rack (rack.output request root).2 filled ∧
      (rack.WellTyped → ∀ id ∈ filled, ∀ before after, rack.nodes[id]? = some before →
        (rack.output request root).2.nodes[id]? = some after →
          Complete request.clamped (rack.output request root).2 before after) ∧
      (∀ id node recorder channels data, rack.nodes[id]? = some node →
        node.recorder = some recorder → rack.Alone id recorder.file →
        recorder.Holds rack.files channels data →
          (id ∉ filled → recorder.Holds (rack.output request root).2.files channels data) ∧
          ∀ block, block = (rack.output request root).2.blockOf id request.clamped.frames →
            id ∈ filled → (recorder.take block).1 = .ok () →
              (recorder.take block).2.Holds (rack.output request root).2.files channels
                (data ++ recorder.pcm block)) ∧
      (∀ id before, rack.nodes[id]? = some before →
        (rack.checkDemands before.device ≠ .ok () ∨
          ∃ input ∈ before.device.reads, ∀ block, (rack.output request input).1 ≠ .ok block) →
        id ∉ filled ∧
          ∃ fills, (rack.output request root).2.nodes[id]? = some { before with fills }) ∧
      ∀ block, (rack.output request root).1 = .ok block → ∀ id before, rack.Reaches root id →
        rack.nodes[id]? = some before → before.isStale request.timestamp = true →
          id ∈ filled := by
  have hwell := h.wellFormed
  have hframes : request.clamped.frames ≤ maxFrames := Nat.min_le_right _ _
  have hnext := hwell.refresh hframes root
  obtain ⟨filled, hfilled⟩ := (steps_refresh request.clamped root rack).1.hasFilled
  rw [nodes_output_clamped]
  refine ⟨filled, hfilled, ?_, ?_, ?_, ?_⟩
  · intro htyped id hmem before after hbefore hafter
    obtain ⟨found, now, hfound, hnow, hfilledAs⟩ := hfilled.of_mem hmem
    rw [hbefore] at hfound
    rw [hafter] at hnow
    cases hfound
    cases hnow
    exact hfilledAs.complete hframes hnext (htyped.of_shape hfilled.shape_eq) hafter
  · intro id node recorder channels data hnode hrecorder halone hholds
    refine ⟨fun hmem => hfilled.holds_of_not_mem hmem halone hholds, ?_⟩
    rintro block rfl hmem htake
    have htaken := hfilled.holds_of_mem hwell hnext hframes hmem hnode hrecorder halone hholds
    rw [Recorder.gain_of_take htake] at htaken
    exact htaken
  · intro id before hbefore hrefused
    have hmem : id ∉ filled := by
      intro hmem
      obtain ⟨found, after, hfound, hafter, hfilledAs⟩ := hfilled.of_mem hmem
      rw [hbefore] at hfound
      cases hfound
      obtain ⟨hdemands, hreads⟩ := earned_refresh hwell request.clamped root id before hbefore
        hfilledAs.stale ⟨after, hafter, fresh_of_filledAs hfilledAs⟩
      obtain hrefused | ⟨input, hinput, hfails⟩ := hrefused
      · exact hrefused hdemands
      · obtain ⟨read, hread⟩ := hreads input hinput
        obtain ⟨block, hblock⟩ := exists_output_of_pulled hread
        exact hfails block hblock
    exact ⟨hmem, hfilled.kept hmem hbefore⟩
  · intro block hok id before hreaches hbefore hstale
    obtain ⟨after, hafter, hlast, -⟩ :=
      hwell.node_refresh hframes (refresh_of_output hok) hreaches hbefore hstale
    by_contra hmem
    obtain ⟨fills, hkept⟩ := hfilled.kept hmem hbefore
    rw [hafter] at hkept
    cases hkept
    have hnever := Node.isStale_eq_true_iff.1 hstale _ hlast
    exact Nat.lt_irrefl _ hnever

def shrillRack : Rack :=
  let pitch := (({} : Rack).add (.constant 30000)).2
  let tone := (pitch.add (.oscillator .sine 0)).2
  let one := (tone.add (.constant 1)).2
  (one.add (.add 2 1)).2

def shrillRequest : Request :=
  { timestamp := 0, frames := 2, controls := {} }

theorem reachable_shrill : shrillRack.Reachable := by
  apply Reachable.add
  · apply Reachable.add
    · apply Reachable.add
      · exact (Reachable.empty {}).add (by simp [Device.inputs])
      · simp [Device.inputs]
    · simp [Device.inputs]
  · simp [Device.inputs]

theorem demands_shrill : shrillRack.checkDemands (.oscillator .sine 0)
    = .error (.invalidInputRange "Constant" (Range.point 30000) "Sine" Device.frequencyRange) :=
  rfl

theorem output_shrill : (shrillRack.output shrillRequest 1).1
    = .error (.invalidInputRange "Constant" (Range.point 30000) "Sine" Device.frequencyRange) := by
  have hnode : shrillRack.nodes[1]? = some (Rack.fresh ((({} : Rack).add (.constant 30000)).2)
      (.oscillator .sine 0)) := rfl
  have hdemands : shrillRack.checkDemands (Rack.fresh ((({} : Rack).add (.constant 30000)).2)
      (.oscillator .sine 0)).device = _ := demands_shrill
  rw [fst_output_clamped, refresh_of_stale hnode rfl, hdemands]
  rfl

theorem output_atomic_shrill :
    shrillRack.Reachable ∧
      ∃ filled, HasFilled shrillRequest.clamped shrillRack
          (shrillRack.output shrillRequest 3).2 filled ∧
        1 ∉ filled ∧ 3 ∉ filled := by
  obtain ⟨filled, hfilled, -, -, hrefused, -⟩ := output_atomic reachable_shrill shrillRequest 3
  refine ⟨reachable_shrill, filled, hfilled, ?_, ?_⟩
  · refine (hrefused 1 _ rfl (Or.inl ?_)).1
    intro hok
    exact absurd (demands_shrill.symm.trans hok) (by simp)
  · -- The sum is refused because the oscillator, which it reads, fails.
    have hmem : 1 ∈ (Device.add 2 1).reads := by simp [Device.reads, Device.inputs]
    refine (hrefused 3 _ rfl (Or.inr ⟨1, hmem, ?_⟩)).1
    intro block hok
    exact absurd (output_shrill.symm.trans hok) (by simp)

end Rack
end PatchSynth
