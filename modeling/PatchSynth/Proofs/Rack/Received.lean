import PatchSynth.Proofs.Rack.Bounded
import PatchSynth.Proofs.Rack.Fed
import PatchSynth.Proofs.Rack.History

/-!
This module contains the blocks that devices are given in the course of a call, at any depth. A node
without a block for the timestamp checks what its inputs declare, brings up to date what it reads,
and asks its device for a fill. `exists_receives_of_fillingOf` says that every fill of a call comes
about in this way. The check compares bounds, but it speaks for all samples that keep them.
-/

namespace PatchSynth
namespace Rack

/--
Whether a pull of `root` comes to a fill of the node `id` from the blocks of `feed`, be it that the
fill succeeds or fails.
-/
inductive Receives (request : Request) (id : Nat) (feed : Nat → Feed) : Nat → Rack → Prop where
  | self {rack next : Rack} {node : Node} (hnode : rack.nodes[id]? = some node)
      (hstale : node.isStale request.timestamp = true)
      (hdemands : rack.checkDemands node.device = .ok ())
      (hreads : forAll (refreshBelow request id) node.device.reads (rack.update id Node.touch)
        = (.ok (), next))
      (hfeed : next.feed request.frames = feed) : Receives request id feed id rack
  | read {root input : Nat} {before after : List Nat} {rack next : Rack} {node : Node}
      (hnode : rack.nodes[root]? = some node) (hstale : node.isStale request.timestamp = true)
      (hdemands : rack.checkDemands node.device = .ok ())
      (hlist : node.device.reads = before ++ input :: after)
      (hbefore : forAll (refreshBelow request root) before (rack.update root Node.touch)
        = (.ok (), next))
      (hlt : input < root) (hinput : Receives request id feed input next) :
      Receives request id feed root rack

variable {request : Request} {rack next : Rack} {id root input : Nat} {feed : Nat → Feed}

theorem checkDemands_eq_ok_iff {device : Device Nat} :
    rack.checkDemands device = .ok () ↔
      ∀ demand ∈ device.demands, (rack.rangeOf demand.1).within demand.2 = true := by
  unfold checkDemands
  generalize device.demands = demands
  induction demands with
  | nil => exact iff_of_true rfl (List.forall_mem_nil _)
  | cons demand rest ih =>
    rw [List.forall_mem_cons, ← ih]
    simp only [List.forM]
    split
    next hwithin => exact ⟨fun hrest => ⟨hwithin, hrest⟩, fun hall => hall.2⟩
    next hwithin =>
      constructor
      · intro hok
        cases hok
      · intro hall
        exact absurd hall.1 hwithin

theorem steps_forAll_refreshBelow (request : Request) (root : Nat) (inputs : List Nat)
    (rack : Rack) :
    Steps request (fun _ => True) rack (forAll (refreshBelow request root) inputs rack).2 ∧
      ((forAll (refreshBelow request root) inputs rack).1 = .ok () → ∀ input ∈ inputs,
        (forAll (refreshBelow request root) inputs rack).2.IsCurrent request.timestamp input) := by
  refine steps_forAll ?_ (rfl : rack.shape = rack.shape)
  intro input _ current _
  unfold refreshBelow
  split
  next =>
    obtain ⟨hsteps, hcurrent⟩ := steps_refresh request input current
    exact ⟨hsteps.mono fun _ _ => trivial, hcurrent⟩
  next => exact ⟨Steps.refl _ _ _, by intro h; cases h⟩

theorem shape_of_forAll {inputs : List Nat}
    (h : forAll (refreshBelow request root) inputs (rack.update root Node.touch) = (.ok (), next)) :
    next.shape = rack.shape := by
  have hsteps := (steps_forAll_refreshBelow request root inputs (rack.update root Node.touch)).1
  rw [h] at hsteps
  exact hsteps.shape_eq.trans (shape_touch rack root)

theorem Receives.exists_node (h : Receives request id feed root rack) :
    ∃ node, rack.nodes[id]? = some node ∧ rack.checkDemands node.device = .ok () ∧
      ∀ input, (feed input).range = rack.rangeOf input := by
  induction h with
  | self hnode _ hdemands hreads hfeed =>
    refine ⟨_, hnode, hdemands, ?_⟩
    intro input
    rw [← hfeed, ← rangeOf_of_shape (shape_of_forAll hreads)]
    rfl
  | read _ _ _ _ hbefore _ _ ih =>
    obtain ⟨read, hread, hdemands, hrange⟩ := ih
    have hshape := shape_of_forAll hbefore
    obtain ⟨node, hnode, hdevice, -⟩ := exists_of_shape hshape hread
    refine ⟨node, hnode, ?_, ?_⟩
    · rw [hdevice, ← checkDemands_of_shape hshape]
      exact hdemands
    · intro input
      rw [hrange, rangeOf_of_shape hshape]

theorem isCurrent_of_touch {timestamp other : Nat}
    (h : (rack.update root Node.touch).IsCurrent timestamp other) :
    rack.IsCurrent timestamp other := by
  obtain ⟨node, hnode, hfresh⟩ := h
  obtain ⟨old, hold, rfl | ⟨-, rfl⟩⟩ := nodes_update_cases hnode
  · exact ⟨node, hold, hfresh⟩
  · exact ⟨old, hold, hfresh⟩

theorem exists_receives_of_forAll
    (hbelow : ∀ input < root, ∀ current : Rack, ¬ current.IsCurrent request.timestamp id →
      (current.refresh request input).2.IsCurrent request.timestamp id →
        ∃ feed, Receives request id feed input current)
    {inputs : List Nat} (hstale : ¬ rack.IsCurrent request.timestamp id)
    (hcurrent : (forAll (refreshBelow request root) inputs rack).2.IsCurrent request.timestamp id) :
    ∃ before input after next feed, inputs = before ++ input :: after ∧
      forAll (refreshBelow request root) before rack = (.ok (), next) ∧ input < root ∧
      Receives request id feed input next := by
  induction inputs generalizing rack with
  | nil => exact absurd hcurrent hstale
  | cons first rest ih =>
    by_cases hfirst : (refreshBelow request root first rack).2.IsCurrent request.timestamp id
    · unfold refreshBelow at hfirst
      split at hfirst
      next hlt =>
        obtain ⟨feed, hreceives⟩ := hbelow first hlt rack hstale hfirst
        exact ⟨[], first, rest, rack, feed, rfl, rfl, hlt, hreceives⟩
      next => exact absurd hfirst hstale
    · rw [forAll] at hcurrent
      split at hcurrent
      next e next hresult =>
        rw [hresult] at hfirst
        exact absurd hcurrent hfirst
      next next hresult =>
        rw [hresult] at hfirst
        obtain ⟨before, input, after, last, feed, rfl, hbefore, hlt, hreceives⟩ :=
          ih hfirst hcurrent
        refine ⟨first :: before, input, after, last, feed, rfl, ?_, hlt, hreceives⟩
        rw [forAll, hresult]
        exact hbefore

theorem steps_after_reads {node : Node} (hnode : rack.nodes[root]? = some node)
    (hstale : node.isStale request.timestamp = true)
    (hdemands : rack.checkDemands node.device = .ok ()) :
    Steps request (root = ·)
      (forAll (refreshBelow request root) node.device.reads (rack.update root Node.touch)).2
      (rack.refresh request root).2 := by
  have hsteps : Steps request (rack.Upstream root) (rack.update root Node.touch)
      (forAll (refreshBelow request root) node.device.reads (rack.update root Node.touch)).2 :=
    (steps_reads hnode (shape_touch rack root)).1
  have hself := hsteps.nodes_touched hnode
  have hcurrent :=
    (steps_forAll_refreshBelow request root node.device.reads (rack.update root Node.touch)).2
  rw [refresh_of_stale hnode hstale, hdemands]
  cases hreads : forAll (refreshBelow request root) node.device.reads
      (rack.update root Node.touch) with
  | mk result next =>
    rw [hreads] at hcurrent hself
    cases result with
    | error e => exact Steps.refl _ _ _
    | ok _ => exact (steps_complete rfl hself hstale (hcurrent rfl)).1

theorem exists_receives_of_stale
    (hbelow : ∀ input < root, ∀ current : Rack, ¬ current.IsCurrent request.timestamp id →
      (current.refresh request input).2.IsCurrent request.timestamp id →
        ∃ feed, Receives request id feed input current)
    {node : Node} (hnode : rack.nodes[root]? = some node)
    (hold : node.isStale request.timestamp = true)
    (hstale : ¬ rack.IsCurrent request.timestamp id)
    (hcurrent : (rack.refresh request root).2.IsCurrent request.timestamp id) :
    ∃ feed, Receives request id feed root rack := by
  cases hdemands : rack.checkDemands node.device with
  | error e =>
    rw [refresh_of_stale hnode hold, hdemands] at hcurrent
    exact absurd hcurrent hstale
  | ok _ =>
    by_cases hread : (forAll (refreshBelow request root) node.device.reads
        (rack.update root Node.touch)).2.IsCurrent request.timestamp id
    · obtain ⟨before, input, after, next, feed, hlist, hbefore, hlt, hinput⟩ :=
        exists_receives_of_forAll hbelow (fun htouched => hstale (isCurrent_of_touch htouched))
          hread
      exact ⟨feed, .read hnode hold hdemands hlist hbefore hlt hinput⟩
    · -- The reads have left the node without a block, and so the fill is that of the pulled one.
      have hlast : Steps request (root = ·) _ (rack.refresh request root).2 :=
        steps_after_reads hnode hold hdemands
      obtain rfl : root = id := by
        by_contra hne
        obtain ⟨found, hfound, hfresh⟩ := hcurrent
        rw [hlast.nodes_of_not_among hne] at hfound
        exact hread ⟨found, hfound, hfresh⟩
      rw [refresh_of_stale hnode hold, hdemands] at hcurrent
      dsimp only at hcurrent
      split at hcurrent
      next hresult =>
        rw [hresult] at hread
        exact absurd hcurrent hread
      next hresult => exact ⟨_, .self hnode hold hdemands hresult rfl⟩

theorem exists_receives (hstale : ¬ rack.IsCurrent request.timestamp id)
    (hcurrent : (rack.refresh request root).2.IsCurrent request.timestamp id) :
    ∃ feed, Receives request id feed root rack := by
  -- A pull goes on at nodes before the pulled one, in a rack that the pulls before have changed.
  induction root using Nat.strongRecOn generalizing rack with
  | ind root ih =>
    cases hnode : rack.nodes[root]? with
    | none =>
      rw [refresh_of_none hnode] at hcurrent
      exact absurd hcurrent hstale
    | some node =>
      cases hold : node.isStale request.timestamp with
      | false =>
        rw [refresh_of_fresh hnode hold] at hcurrent
        exact absurd hcurrent hstale
      | true =>
        exact exists_receives_of_stale (fun input hlt _ => ih input hlt) hnode hold hstale hcurrent

theorem forAll_append {act : Nat → Rack → Except Error Unit × Rack} {before : List Nat}
    (hbefore : forAll act before rack = (.ok (), next)) (after : List Nat) :
    forAll act (before ++ after) rack = forAll act after next := by
  induction before generalizing rack with
  | nil =>
    cases hbefore
    rfl
  | cons input rest ih =>
    rw [forAll] at hbefore
    rw [List.cons_append, forAll]
    split at hbefore
    next => cases hbefore
    next => exact ih hbefore

theorem steps_of_read {before after : List Nat} {node : Node}
    (hnode : rack.nodes[root]? = some node) (hstale : node.isStale request.timestamp = true)
    (hdemands : rack.checkDemands node.device = .ok ())
    (hlist : node.device.reads = before ++ input :: after)
    (hbefore : forAll (refreshBelow request root) before (rack.update root Node.touch)
      = (.ok (), next))
    (hlt : input < root) :
    Steps request (fun _ => True) (next.refresh request input).2 (rack.refresh request root).2 := by
  have hlast : Steps request (fun _ => True) _ (rack.refresh request root).2 :=
    (steps_after_reads hnode hstale hdemands).mono fun _ _ => trivial
  rw [hlist, forAll_append hbefore, forAll, refreshBelow, if_pos hlt] at hlast
  split at hlast
  next hresult =>
    rw [hresult]
    exact hlast
  next hresult =>
    rw [hresult]
    exact (steps_forAll_refreshBelow request root after _).1.trans hlast

theorem Steps.feed_eq {among : Nat → Prop} (h : Steps request among rack next)
    (hcurrent : rack.IsCurrent request.timestamp input) :
    next.feed request.frames input = rack.feed request.frames input := by
  simp only [feed, rangeOf_of_shape h.shape_eq, blockOf, h.nodes_of_isCurrent hcurrent]

theorem Receives.feed_eq (h : Receives request id feed root rack) {node : Node}
    (hnode : rack.nodes[id]? = some node) {input : Nat} (hmem : input ∈ node.device.reads) :
    (rack.refresh request root).2.IsCurrent request.timestamp input ∧
      (rack.refresh request root).2.feed request.frames input = feed input := by
  -- The inputs are up to date when the fill begins, and from then on no step changes them.
  induction h generalizing node with
  | @self rack next found hfound hstale hdemands hreads hfeed =>
    rw [hfound] at hnode
    cases hnode
    obtain ⟨-, hcurrent⟩ :=
      steps_forAll_refreshBelow request id found.device.reads (rack.update id Node.touch)
    have hlast := steps_after_reads hfound hstale hdemands
    rw [hreads] at hcurrent hlast
    have hinput := hcurrent rfl input hmem
    rw [← hfeed]
    exact ⟨hlast.isCurrent hinput, hlast.feed_eq hinput⟩
  | read hroot hstale hdemands hlist hbefore hlt _ ih =>
    obtain ⟨found, hfound, hdevice, -⟩ := exists_of_shape (shape_of_forAll hbefore).symm hnode
    rw [← hdevice] at hmem
    obtain ⟨hcurrent, hfeed⟩ := ih hfound hmem
    have hlast := steps_of_read hroot hstale hdemands hlist hbefore hlt
    exact ⟨hlast.isCurrent hcurrent, (hlast.feed_eq hcurrent).trans hfeed⟩

theorem exists_receives_of_fillingOf (h : rack.WellFormed) {filling : Filling}
    (hfilling : rack.fillingOf request root id = some filling) :
    ∃ feed, Receives request.clamped id feed root rack ∧ ∃ result,
      (filling.before.device.map feed).fill request.clamped filling.before.phase = .ok result ∧
        filling.block
          = (filling.before.store request.timestamp result).block request.clamped.frames := by
  obtain ⟨hnone, -⟩ | ⟨found, hfound, hgenuine, hrequest, hrack, hbefore⟩ :=
    fillingOf_cases h request root id
  · rw [hnone] at hfilling
    cases hfilling
  rw [hfilling] at hfound
  cases hfound
  have hfilledAs : FilledAs request.clamped (rack.output request root).2 filling.before
      filling.after := by
    rw [← hrequest, ← hrack]
    exact hgenuine.filledAs
  have hafter := hgenuine.node_eq
  rw [hrack, nodes_output_clamped] at hafter
  rw [nodes_output_clamped] at hfilledAs
  have hstale : ¬ rack.IsCurrent request.clamped.timestamp id := by
    rintro ⟨node, hnode, hfresh⟩
    rw [hbefore] at hnode
    cases hnode
    rw [hfilledAs.stale] at hfresh
    cases hfresh
  obtain ⟨feed, hreceives⟩ := exists_receives hstale ⟨_, hafter, fresh_of_filledAs hfilledAs⟩
  obtain ⟨-, -, -, hrange⟩ := hreceives.exists_node
  obtain ⟨result, fills, hfill, heq⟩ := hfilledAs.fill
  refine ⟨feed, hreceives, result, ?_, ?_⟩
  · rw [← hfill]
    apply Device.fill_map_congr
    · intro input _
      rw [hrange, ← rangeOf_of_shape (shape_refresh request.clamped rack root)]
      rfl
    · intro input hmem
      rw [(hreceives.feed_eq hbefore hmem).2]
  · rw [Filling.block, heq, hrequest]
    exact block_filled _ _

theorem Receives.contains (h : Receives request id feed root rack) {node : Node}
    (hnode : rack.nodes[id]? = some node) {demand : Nat × Range}
    (hdemand : demand ∈ node.device.demands) (hkeeps : (feed demand.1).Keeps) :
    ∀ sample ∈ (feed demand.1).block, demand.2.contains sample = true := by
  obtain ⟨found, hfound, hchecked, hrange⟩ := h.exists_node
  rw [hnode] at hfound
  cases hfound
  have hwithin := checkDemands_eq_ok_iff.1 hchecked demand hdemand
  rw [← hrange] at hwithin
  intro sample hmem
  exact Range.contains_of_within hwithin (hkeeps sample hmem)

/--
To compare the bounds of two ranges is to compare all samples in them, be the bounds infinite, NaN,
zeros of either sign, or in the wrong order: a range within another one holds nothing that the other
does not, and if it holds anything, which it does if its bounds are in order, the converse is true
as well. So wherever a call gets to, no device is given a sample that it does not accept by an input
that keeps the range that it declares, which is the range that was checked. What a device is filled
from in a call is what it is given.
-/
theorem within_means_contains :
    (∀ a b : Range, a.within b = true → ∀ x, a.contains x = true → b.contains x = true) ∧
    (∀ a : Range, (∃ x, a.contains x = true) ↔ a.min ≤ a.max) ∧
    (∀ a b : Range, a.min ≤ a.max → (∀ x, a.contains x = true → b.contains x = true) →
      a.within b = true) ∧
    (∀ {request : Request} {id root : Nat} {feed : Nat → Feed} {rack : Rack},
      Receives request id feed root rack →
      ∃ node, rack.nodes[id]? = some node ∧ rack.checkDemands node.device = .ok () ∧
        ∀ demand ∈ node.device.demands, (feed demand.1).range = rack.rangeOf demand.1 ∧
          ((feed demand.1).Keeps →
            ∀ sample ∈ (feed demand.1).block, demand.2.contains sample = true)) ∧
    ∀ {rack : Rack} {request : Request} {root id : Nat} {filling : Filling}, rack.Reachable →
      rack.fillingOf request root id = some filling →
      ∃ feed, Receives request.clamped id feed root rack ∧ ∃ result,
        (filling.before.device.map feed).fill request.clamped filling.before.phase = .ok result ∧
          filling.block
            = (filling.before.store request.timestamp result).block request.clamped.frames := by
  refine ⟨fun a b h x => Range.contains_of_within h, fun a => Range.exists_contains_iff,
    fun a b => Range.within_of_contains, ?_, ?_⟩
  · intro request id root feed rack hreceives
    obtain ⟨node, hnode, hdemands, hrange⟩ := hreceives.exists_node
    refine ⟨node, hnode, hdemands, ?_⟩
    intro demand hdemand
    exact ⟨hrange demand.1, hreceives.contains hnode hdemand⟩
  · intro rack request root id filling hreachable hfilling
    exact exists_receives_of_fillingOf hreachable.wellFormed hfilling

def droneRack : Rack :=
  let pitch := (({} : Rack).add (.constant 440)).2
  let tone := (pitch.add (.oscillator .saw 0)).2
  (tone.add (.add 1 0)).2

theorem reachable_drone : droneRack.Reachable := by
  apply Reachable.add
  · apply Reachable.add
    · exact (Reachable.empty {}).add (by simp [Device.inputs])
    · simp [Device.inputs]
  · simp [Device.inputs]

theorem exists_pulled_drone (hrack : rack.WellFormed)
    (hsame : rack.nodes[0]? = droneRack.nodes[0]?) :
    ∃ read, rack.pulled twoFrames 0 = .ok read ∧ read.block 2 = #[440, 440] := by
  obtain ⟨pitch, hpitch, hconstant, hstale, hrange, hidle⟩ : ∃ pitch,
      droneRack.nodes[0]? = some pitch ∧ pitch.device = .constant 440 ∧
        pitch.isStale twoFrames.timestamp = true ∧ pitch.range = Range.point 440 ∧
          pitch.recorder = none := ⟨_, rfl, rfl, rfl, rfl, rfl⟩
  have hcontains : (Range.point 440).contains 440 = true := by decide +kernel
  rw [hpitch] at hsame
  exact exists_pulled_of_steady hrack (by decide) hsame hstale (hconstant ▸ rfl)
    (hrange ▸ hcontains) (Node.room_of_idle hidle _)

theorem exists_fillingOf_drone : ∃ filling, droneRack.fillingOf twoFrames 0 0 = some filling := by
  obtain ⟨pitch, hpitch, hstale⟩ : ∃ pitch, droneRack.nodes[0]? = some pitch ∧
      pitch.isStale twoFrames.timestamp = true := ⟨_, rfl, rfl⟩
  obtain ⟨read, hread, -⟩ := exists_pulled_drone reachable_drone.wellFormed rfl
  have hok : (droneRack.refresh twoFrames.clamped 0).1 = .ok () := by
    rw [refresh_eq_pulled]
    exact congrArg (Except.map fun _ => ()) hread
  obtain ⟨filling, hfilling, -⟩ := exists_fillingOf reachable_drone.wellFormed hpitch hstale hok
  exact ⟨filling, hfilling⟩

theorem exists_receives_drone :
    ∃ feed, Receives twoFrames 1 feed 2 droneRack ∧ (feed 0).block = #[440, 440] := by
  have hframes : twoFrames.frames ≤ maxFrames := by decide
  obtain ⟨sum, hsum, hadd, hstale⟩ : ∃ sum, droneRack.nodes[2]? = some sum ∧
      sum.device = .add 1 0 ∧ sum.isStale twoFrames.timestamp = true := ⟨_, rfl, rfl, rfl⟩
  obtain ⟨tone, htone, hsaw, hstale'⟩ : ∃ tone,
      (droneRack.update 2 Node.touch).nodes[1]? = some tone ∧ tone.device = .oscillator .saw 0 ∧
        tone.isStale twoFrames.timestamp = true := ⟨_, rfl, rfl, rfl⟩
  generalize hstart : (droneRack.update 2 Node.touch).update 1 Node.touch = start
  have hrack : start.WellFormed := by
    rw [← hstart]
    have hbegun := reachable_drone.wellFormed.step hframes (Step.touch hsum hstale)
    exact hbegun.step hframes (Step.touch htone hstale')
  have hsame : start.nodes[0]? = droneRack.nodes[0]? := by
    rw [← hstart, getElem?_update, if_neg (by decide), getElem?_update, if_neg (by decide)]
  obtain ⟨read, hread, hblock⟩ := exists_pulled_drone hrack hsame
  have hok : (start.refresh twoFrames 0).1 = .ok () := by
    rw [refresh_eq_pulled, hread]
    rfl
  have hreads : forAll (refreshBelow twoFrames 1) tone.device.reads
      ((droneRack.update 2 Node.touch).update 1 Node.touch)
        = (.ok (), (start.refresh twoFrames 0).2) := by
    have hrefresh : refreshBelow twoFrames 1 0 start = (.ok (), (start.refresh twoFrames 0).2) :=
      Prod.ext hok rfl
    rw [hstart, hsaw]
    simp only [Device.reads, Device.inputs, forAll, hrefresh]
  have hlist : sum.device.reads = [] ++ 1 :: [0] := by
    rw [hadd]
    rfl
  have hdemands : (droneRack.update 2 Node.touch).checkDemands tone.device = .ok () := by
    rw [hsaw, checkDemands_eq_ok_iff]
    intro demand hmem
    obtain rfl := List.mem_singleton.1 hmem
    decide +kernel
  refine ⟨_, .read hsum hstale (hadd ▸ rfl) hlist rfl (by decide)
    (.self htone hstale' hdemands hreads rfl), ?_⟩
  obtain ⟨found, hfound, hnode⟩ := exists_pulled_of_refresh hok
  rw [hread] at hfound
  cases hfound
  rw [feed, blockOf, hnode]
  exact hblock

theorem within_means_contains_drone :
    (Range.point (-0)).contains 0 = true ∧
      (¬ ∃ x, ({ min := 1, max := -1 } : Range).contains x = true) ∧
      (Range.point 0).within (Range.point (-0)) = true ∧
      (∃ feed, Receives twoFrames 1 feed 2 droneRack ∧ (feed 0).Keeps ∧
        (feed 0).block = #[440, 440] ∧
        ∀ sample ∈ (feed 0).block, Device.frequencyRange.contains sample = true) ∧
      droneRack.Reachable ∧ ∃ filling, droneRack.fillingOf twoFrames 0 0 = some filling ∧
        ∃ feed, Receives twoFrames.clamped 0 feed 0 droneRack := by
  obtain ⟨hsound, hfilled, hexact, hgiven, hfills⟩ := within_means_contains
  have hzeros : (Range.point 0).within (Range.point (-0)) = true ∧
      (Range.point 0).contains 0 = true := by decide +kernel
  refine ⟨hsound (Range.point 0) (Range.point (-0)) hzeros.1 0 hzeros.2, ?_, ?_, ?_,
    reachable_drone, ?_⟩
  · rw [hfilled]
    decide +kernel
  · apply hexact
    · decide +kernel
    · intro x hx
      have hle : (-0 : Float32) ≤ 0 ∧ (0 : Float32) ≤ -0 := by decide +kernel
      rw [Range.contains_iff] at hx ⊢
      exact ⟨Single.le_trans hle.1 hx.1, Single.le_trans hx.2 hle.2⟩
  · obtain ⟨feed, hreceives, hblock⟩ := exists_receives_drone
    obtain ⟨node, hnode, -, hdemands⟩ := hgiven hreceives
    have hdevice : node.device = .oscillator .saw 0 := by
      cases hnode
      rfl
    obtain ⟨hrange, haccepted⟩ :=
      hdemands (0, Device.frequencyRange) (by simp [hdevice, Device.demands])
    have hkeeps : (feed 0).Keeps := by
      have hcontains : ∀ sample ∈ [440, 440], (droneRack.rangeOf 0).contains sample = true := by
        decide +kernel
      intro sample hmem
      rw [hblock] at hmem
      rw [hrange]
      exact hcontains sample (Array.mem_toList_iff.2 hmem)
    exact ⟨feed, hreceives, hkeeps, hblock, haccepted hkeeps⟩
  · obtain ⟨filling, hfilling⟩ := exists_fillingOf_drone
    obtain ⟨feed, hreceives, -⟩ := hfills reachable_drone hfilling
    exact ⟨filling, hfilling, feed, hreceives⟩

end Rack
end PatchSynth
