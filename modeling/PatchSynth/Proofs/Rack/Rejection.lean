import PatchSynth.Proofs.Rack.Room

/-!
This module contains what becomes of a block that is refused because a sample leaves the declared
range. The range is checked by the call that computes the block and by no other: the block stays in
the buffer and is handed out from then on.
-/

namespace PatchSynth

variable {node : Node} {frames : Nat}

theorem Node.toList_block (node : Node) (frames : Nat) :
    (node.block frames).toList = node.buffer.toList.take (frames * node.device.channels) := by
  simp [block]

theorem Node.mem_block_of_le {sample : Float32} {more : Nat} (h : sample ∈ node.block frames)
    (hle : frames ≤ more) : sample ∈ node.block more := by
  have hle := Nat.mul_le_mul_right node.device.channels hle
  rw [← Array.mem_toList_iff, toList_block] at *
  have htake : node.buffer.toList.take (frames * node.device.channels)
      = (node.buffer.toList.take (more * node.device.channels)).take
          (frames * node.device.channels) := by
    rw [List.take_take, Nat.min_eq_left hle]
  rw [htake] at h
  exact List.mem_of_mem_take h

theorem Node.of_check_eq_error {typeName : String} {range : Range} {value : Float32}
    (h : node.check frames = .error (.invalidOutputRange typeName range value)) :
    range = node.range ∧ value ∈ node.block frames ∧ node.range.contains value = false := by
  unfold check at h
  split at h
  next found hfind =>
    cases h
    have hout := Array.find?_some hfind
    exact ⟨rfl, Array.mem_of_find?_eq_some hfind, by simpa using hout⟩
  next => cases h

namespace Rack

variable {request : Request} {rack next : Rack} {id : Nat}

/--
Whether a call fails because it computed a block for a node that has a value out of range.
-/
structure Rejects (request : Request) (root id : Nat) (rack : Rack) (after : Node)
    (value : Float32) : Prop where
  stale : ∃ before, rack.nodes[id]? = some before ∧ before.isStale request.timestamp = true
  fails : (rack.output request root).1
    = .error (.invalidOutputRange after.device.typeName after.range value)
  node : (rack.output request root).2.nodes[id]? = some after
  computed : after.isStale request.timestamp = false
  rejected : after.check (min request.frames maxFrames)
    = .error (.invalidOutputRange after.device.typeName after.range value)

theorem Steps.last_eq {among : Nat → Prop} (h : Steps request among rack next) {before after : Node}
    (hbefore : rack.nodes[id]? = some before) (hstale : before.isStale request.timestamp = true)
    (hafter : next.nodes[id]? = some after) (hfresh : after.isStale request.timestamp = false) :
    after.last = some request.timestamp := by
  -- A step leaves the node stale or gives it a block for the timestamp, and no step follows then.
  have hkeep : ∃ now, next.nodes[id]? = some now ∧
      (now.isStale request.timestamp = true ∨ now.last = some request.timestamp) := by
    apply h.keep (P := fun next => ∃ now, next.nodes[id]? = some now ∧
      (now.isStale request.timestamp = true ∨ now.last = some request.timestamp))
    · rintro other current next - hstep ⟨now, hnow, hcases⟩
      by_cases hid : other = id
      · subst hid
        obtain ⟨found, hfound, hstale, htouch | ⟨result, -, -, hfill⟩⟩ := hstep.nodes_cases
        · exact ⟨found.touch, by rw [htouch, if_pos rfl], Or.inl hstale⟩
        · refine ⟨_, by rw [hfill, if_pos rfl], Or.inr ?_⟩
          simp [Step.filled, Node.store]
      · exact ⟨now, by rw [hstep.nodes_of_ne hid, hnow], hcases⟩
    · exact ⟨before, hbefore, Or.inl hstale⟩
  obtain ⟨now, hnow, hcases⟩ := hkeep
  rw [hafter] at hnow
  cases hnow
  obtain hstale | hlast := hcases
  · rw [hfresh] at hstale
    cases hstale
  · exact hlast

theorem Rejects.last_eq {root : Nat} {after : Node} {value : Float32}
    (h : Rejects request root id rack after value) : after.last = some request.timestamp := by
  obtain ⟨before, hbefore, hstale⟩ := h.stale
  have hnode := h.node
  rw [nodes_output] at hnode
  have hsteps := (steps_refresh { request with frames := min request.frames maxFrames } root rack).1
  exact hsteps.last_eq hbefore hstale hnode h.computed

def Keeps (timestamp id : Nat) (old : Node) (rack : Rack) : Prop :=
  ∃ now last, rack.nodes[id]? = some now ∧ now.device = old.device ∧ now.range = old.range ∧
    now.last = some last ∧ timestamp ≤ last ∧ (last = timestamp → now.buffer = old.buffer)

namespace Keeps

variable {timestamp : Nat} {old : Node}

theorem of_update_recorder (h : rack.Keeps timestamp id old) {other : Nat}
    {recorder : Option Recorder} {files : Files} :
    Keeps timestamp id old
      { rack.update other fun node => { node with recorder := recorder } with files := files } := by
  obtain ⟨now, last, hnow, hdevice, hrange, hlast, hle, hbuffer⟩ := h
  have hupdate := getElem?_update rack other id fun node => { node with recorder := recorder }
  rw [hnow] at hupdate
  by_cases hid : other = id
  · rw [if_pos hid] at hupdate
    exact ⟨_, last, hupdate, hdevice, hrange, hlast, hle, hbuffer⟩
  · rw [if_neg hid] at hupdate
    exact ⟨now, last, hupdate, hdevice, hrange, hlast, hle, hbuffer⟩

theorem step (h : rack.Keeps timestamp id old) {other : Nat}
    (hstep : Step request other rack next) : next.Keeps timestamp id old := by
  obtain ⟨now, last, hnow, hdevice, hrange, hlast, hle, hbuffer⟩ := h
  by_cases hid : other = id
  · subst hid
    obtain ⟨found, hfound, hstale, htouch | ⟨result, -, -, hfill⟩⟩ := hstep.nodes_cases
    · rw [hnow] at hfound
      cases hfound
      exact ⟨now.touch, last, by rw [htouch, if_pos rfl], hdevice, hrange, hlast, hle, hbuffer⟩
    · rw [hnow] at hfound
      cases hfound
      -- The node gets a newer block, and nothing is said about its buffer from then on.
      rw [Node.isStale_eq_true_iff] at hstale
      have hlt := hstale last hlast
      refine ⟨_, request.timestamp, by rw [hfill, if_pos rfl], ?_, ?_, ?_, by omega, by omega⟩
      · simpa [Step.filled, Node.store] using hdevice
      · simpa [Step.filled, Node.store] using hrange
      · simp [Step.filled, Node.store]
  · exact ⟨now, last, by rw [hstep.nodes_of_ne hid, hnow], hdevice, hrange, hlast, hle, hbuffer⟩

theorem output (h : rack.Keeps timestamp id old) (request : Request) (root : Nat) :
    (rack.output request root).2.Keeps timestamp id old := by
  rw [nodes_output]
  apply (steps_refresh _ root rack).1.keep (P := Keeps timestamp id old)
  · intro other current next _ hstep hcurrent
    exact hcurrent.step hstep
  · exact h

theorem later (h : rack.Keeps timestamp id old) (hlater : Later rack next) :
    next.Keeps timestamp id old := by
  induction hlater with
  | refl => exact h
  | @add current device _ _ ih =>
    obtain ⟨now, last, hnow, hrest⟩ := ih
    obtain ⟨hlt, -⟩ := Array.getElem?_eq_some_iff.1 hnow
    exact ⟨now, last, by rw [getElem?_add_of_lt current device hlt, hnow], hrest⟩
  | output _ request root ih => exact ih.output request root
  | record _ other path scaler ih =>
    obtain heq | ⟨_, recorder, files, -, -, heq⟩ := snd_record_cases _ other path scaler
    · rw [heq]
      exact ih
    · rw [heq]
      exact ih.of_update_recorder
  | stop _ other ih =>
    obtain heq | ⟨files, heq⟩ := snd_stop_cases _ other
    · rw [heq]
      exact ih
    · rw [heq]
      exact ih.of_update_recorder

end Keeps

theorem output_of_fresh (hnode : rack.nodes[id]? = some node)
    (hfresh : node.isStale request.timestamp = false) :
    rack.output request id = (.ok (node.block (min request.frames maxFrames)), rack) := by
  have hrefresh : rack.refresh { request with frames := min request.frames maxFrames } id
      = (.ok (), rack) := refresh_of_fresh hnode hfresh
  simp only [output, hrefresh, blockOf, hnode]

theorem contains_of_output (hnode : rack.nodes[id]? = some node)
    (hstale : node.isStale request.timestamp = true) {block : Block}
    (hok : (rack.output request id).1 = .ok block) :
    ∀ sample ∈ block, node.range.contains sample = true := by
  unfold output at hok
  dsimp only at hok
  split at hok
  next => cases hok
  next next hrefresh =>
    cases hok
    obtain ⟨value, hvalue, hnext⟩ := exists_pulled_of_refresh (congrArg Prod.fst hrefresh)
    rw [hrefresh] at hnext
    obtain ⟨found, hfound, hcases⟩ := pulled_cases hvalue
    rw [hnode] at hfound
    cases hfound
    obtain ⟨hfresh, -⟩ | ⟨-, hevaluated⟩ := hcases
    · rw [hstale] at hfresh
      cases hfresh
    · rw [evaluated_eq_ok_iff] at hevaluated
      obtain ⟨-, -, result, -, -, hcheck, rfl⟩ := hevaluated
      rw [Node.check_eq_ok_iff] at hcheck
      have hblock : next.blockOf id (min request.frames maxFrames)
          = (node.store request.timestamp result).block (min request.frames maxFrames) := by
        simp only [blockOf, hnext, block_filled]
        rfl
      rw [hblock]
      exact hcheck

/--
The range guards the call that computes a block, and no other. When a call has failed because of the
block of a node, then for as long as the node is not evaluated anew, every call that does not
evaluate it hands out what is in its buffer, the refused samples included, and so does every pull of
a consumer. Whatever happened since, a call that evaluates the node hands out nothing that is out of
range.
-/
theorem output_of_rejects {root : Nat} {after : Node} {value : Float32}
    (hrejects : Rejects request root id rack after value) {later : Rack}
    (hlater : Later (rack.output request root).2 later) {now : Node}
    (hnow : later.nodes[id]? = some now) (again : Request) :
    (now.last = some request.timestamp → again.timestamp ≤ request.timestamp →
      later.output again id = (.ok (after.block (min again.frames maxFrames)), later) ∧
      (request.frames ≤ again.frames → value ∈ after.block (min again.frames maxFrames) ∧
        after.range.contains value = false) ∧
      ∀ among current, Steps again among later current →
        current.feed again.frames id =
          { range := after.range, block := after.block again.frames }) ∧
    (now.isStale again.timestamp = true → ∀ block, (later.output again id).1 = .ok block →
      ∀ sample ∈ block, after.range.contains sample = true) := by
  have hkeeps : later.Keeps request.timestamp id after := by
    have hstart : (rack.output request root).2.Keeps request.timestamp id after :=
      ⟨after, request.timestamp, hrejects.node, rfl, rfl, hrejects.last_eq, Nat.le_refl _,
        fun _ => rfl⟩
    exact hstart.later hlater
  obtain ⟨found, last, hfound, hdevice, hrange, hlast', -, hbuffer⟩ := hkeeps
  rw [hnow] at hfound
  cases hfound
  constructor
  · intro hlast hle
    rw [hlast] at hlast'
    cases hlast'
    have hblock : ∀ frames, now.block frames = after.block frames := by
      intro frames
      rw [Node.block, Node.block, hbuffer rfl, hdevice]
    have hfresh : now.isStale again.timestamp = false := by
      rw [Node.isStale_eq_false_iff]
      exact ⟨_, hlast, hle⟩
    refine ⟨?_, ?_, ?_⟩
    · rw [output_of_fresh hnow hfresh, hblock]
    · intro hframes
      obtain ⟨-, hmem, hout⟩ := Node.of_check_eq_error hrejects.rejected
      refine ⟨Node.mem_block_of_le hmem ?_, hout⟩
      omega
    · intro among current hsteps
      have hcurrent := hsteps.nodes_of_isCurrent ⟨now, hnow, hfresh⟩
      rw [hnow] at hcurrent
      simp only [feed, rangeOf, blockOf, hcurrent, hrange, hblock]
  · intro hstale block hok
    rw [← hrange]
    exact contains_of_output hnow hstale hok

def loud : Processor where
  typeName := "Loud"
  isStereo := false
  range _ := Range.bipolar
  accepts := none
  reads := false
  run timestamp frames _ := .ok (Array.replicate frames (if timestamp = 1 then 3 else 0.5))

def loudRack : Rack :=
  (({} : Rack).add (.custom loud [])).2

def twoFrames : Request :=
  { timestamp := 1, frames := 2, controls := {} }

def loudFresh : Node :=
  ({} : Rack).fresh (.custom loud [])

def loudFill : Fill where
  samples := #[3, 3]
  phase := 0

def loudNode : Node :=
  Step.filled twoFrames loudFill loudFresh.touch

theorem refresh_of_source {result : Fill} (hnode : rack.nodes[id]? = some node)
    (hstale : node.isStale request.timestamp = true) (hdemands : node.device.demands = [])
    (hreads : node.device.reads = []) (hrecorder : node.recorder = none)
    (hfill : ∀ f, (node.device.map f).fill request node.phase = .ok result) :
    (rack.refresh request id).1 = (node.store request.timestamp result).check request.frames ∧
      (rack.refresh request id).2.nodes[id]? = some (Step.filled request result node.touch) := by
  have hok : rack.checkDemands node.device = .ok () := by
    rw [checkDemands, hdemands]
    rfl
  have htouch : (rack.update id Node.touch).nodes[id]? = some node.touch := by
    rw [getElem?_update, if_pos rfl, hnode]
    rfl
  have hrecorded : ((node.touch.store request.timestamp result).recorded request.frames).1
      = .ok () := by
    have hnone : (node.touch.store request.timestamp result).recorder = none := hrecorder
    simp only [Node.recorded, hnone]
  rw [refresh_of_stale hnode hstale, hok, hreads]
  refine ⟨?_, nodes_complete htouch (hfill _)⟩
  simp only [forAll, fst_complete htouch, hfill, Except.bind, hrecorded]

theorem check_loud : (loudFresh.store twoFrames.timestamp loudFill).check twoFrames.frames
    = .error (.invalidOutputRange "Loud" Range.bipolar 3) := by
  rw [Node.check, Node.block_store _ rfl]
  rfl

theorem output_loud :
    (loudRack.output twoFrames 0).1 = .error (.invalidOutputRange "Loud" Range.bipolar 3) ∧
      (loudRack.output twoFrames 0).2.nodes[0]? = some loudNode := by
  have hnode : loudRack.nodes[0]? = some loudFresh := rfl
  have hfill : ∀ f, (loudFresh.device.map f).fill twoFrames loudFresh.phase = .ok loudFill :=
    fun _ => rfl
  obtain ⟨hfails, hafter⟩ := refresh_of_source hnode rfl rfl rfl rfl hfill
  rw [check_loud] at hfails
  have hrequest : { twoFrames with frames := min twoFrames.frames maxFrames } = twoFrames := rfl
  rw [nodes_output, fst_output, hrequest, hfails]
  exact ⟨rfl, hafter⟩

theorem rejects_loud : Rejects twoFrames 0 0 loudRack loudNode 3 := by
  obtain ⟨hfails, hafter⟩ := output_loud
  refine ⟨⟨loudFresh, rfl, rfl⟩, hfails, hafter, isStale_filled _ _ _, ?_⟩
  have hblock : loudNode.block (min twoFrames.frames maxFrames) = loudFill.samples := by
    rw [loudNode, block_filled]
    exact Node.block_store _ rfl
  rw [Node.check, hblock]
  rfl

theorem output_again_loud :
    loudRack.Reachable ∧ Rejects twoFrames 0 0 loudRack loudNode 3 ∧
      ∃ block, ((loudRack.output twoFrames 0).2.output twoFrames 0).1 = .ok block ∧
        ∃ sample ∈ block, loudNode.range.contains sample = false := by
  have hreachable : loudRack.Reachable :=
    (Reachable.empty {}).add (by simp [Device.inputs])
  obtain ⟨-, hmem, hout⟩ := Node.of_check_eq_error rejects_loud.rejected
  have hagain := output_of_fresh rejects_loud.node rejects_loud.computed
  exact ⟨hreachable, rejects_loud, _, congrArg Prod.fst hagain, 3, hmem, hout⟩

def nextFrames : Request :=
  { timestamp := 2, frames := 2, controls := {} }

theorem isStale_loudNode : loudNode.isStale nextFrames.timestamp = true := by
  simp [Node.isStale, rejects_loud.last_eq, twoFrames, nextFrames]

theorem exists_block_loud :
    ∃ block, ((loudRack.output twoFrames 0).2.output nextFrames 0).1 = .ok block := by
  have hfill : ∀ f, (loudNode.device.map f).fill nextFrames loudNode.phase
      = .ok { samples := #[0.5, 0.5], phase := 0 } := fun _ => rfl
  have hcheck : (loudNode.store nextFrames.timestamp
      { samples := #[0.5, 0.5], phase := 0 }).check nextFrames.frames = .ok () := by
    rw [Node.check, Node.block_store _ rfl]
    rfl
  obtain ⟨hok, -⟩ :=
    refresh_of_source rejects_loud.node isStale_loudNode rfl rfl rfl hfill
  rw [hcheck] at hok
  have hrequest : { nextFrames with frames := min nextFrames.frames maxFrames } = nextFrames := rfl
  rw [fst_output, hrequest, hok]
  exact ⟨_, rfl⟩

theorem output_of_rejects_loud :
    Rejects twoFrames 0 0 loudRack loudNode 3 ∧
      (loudRack.output twoFrames 0).2.output twoFrames 0
        = (.ok (loudNode.block (min twoFrames.frames maxFrames)), (loudRack.output twoFrames 0).2) ∧
      3 ∈ loudNode.block (min twoFrames.frames maxFrames) ∧
      loudNode.isStale nextFrames.timestamp = true ∧
      ∃ block, ((loudRack.output twoFrames 0).2.output nextFrames 0).1 = .ok block ∧
        ∀ sample ∈ block, loudNode.range.contains sample = true := by
  obtain ⟨hcached, -⟩ :=
    output_of_rejects rejects_loud Later.refl rejects_loud.node twoFrames
  obtain ⟨-, hanew⟩ :=
    output_of_rejects rejects_loud Later.refl rejects_loud.node nextFrames
  obtain ⟨houtput, hmem, -⟩ := hcached rejects_loud.last_eq (Nat.le_refl _)
  obtain ⟨block, hblock⟩ := exists_block_loud
  exact ⟨rejects_loud, houtput, (hmem (Nat.le_refl _)).1, isStale_loudNode, block, hblock,
    hanew isStale_loudNode block hblock⟩

end Rack
end PatchSynth
