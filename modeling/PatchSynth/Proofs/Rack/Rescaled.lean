import PatchSynth.Proofs.Device.Rescaler
import PatchSynth.Proofs.Rack.Bounded
import PatchSynth.Proofs.Rack.Fed

/-!
This module contains the rescalers of a rack. The samples of a rescaler lie between its limits unless
they are NaN, and so its own check refuses nothing but the samples for which a step of the arithmetic
overflows.
-/

namespace PatchSynth

open Single

namespace Rack

variable {rack : Rack} {request : Request} {id input : Nat} {node : Node} {low high : Float32}

theorem WellFormed.block_store_rescaled (h : rack.WellFormed) (hnode : rack.nodes[id]? = some node)
    (hdevice : node.device = .rescaler input low high) {block : Block}
    (hok : (rack.output request input).1 = .ok block) {f : Float32 → Float32} (timestamp : Nat)
    (phase : Float32) :
    (node.store timestamp
        { samples := (block.extract 0 request.clamped.frames).map f, phase }).block
        request.clamped.frames
      = (block.extract 0 request.clamped.frames).map f := by
  have hinput : input ∈ node.device.inputs := by
    simp [hdevice, Device.inputs]
  obtain ⟨source, hsource⟩ := h.exists_node_of_input hnode hinput
  have hwide := h.size_of_output hsource hok
  have hone := Nat.le_mul_of_pos_right request.clamped.frames source.device.one_le_channels
  apply Node.block_store
  rw [hdevice, Array.size_map, Array.size_extract]
  simp only [Device.channels, Device.isStereo, Bool.false_eq_true, if_false]
  omega

theorem WellFormed.range_of_rescaler (h : rack.WellFormed) (hnode : rack.nodes[id]? = some node)
    (hdevice : node.device = .rescaler input low high) : node.range = Range.between low high := by
  rw [h.range_eq hnode, hdevice]
  rfl

theorem WellFormed.exists_block_of_rescaler (h : rack.WellFormed)
    (hnode : rack.nodes[id]? = some node) (hdevice : node.device = .rescaler input low high)
    (hrescales : Device.Rescales low high (rack.rangeOf input)) {typeName : String} {range : Range}
    {value : Float32}
    (herror : (rack.output request id).1 = .error (.invalidOutputRange typeName range value)) :
    (rack.output request input).1 = .error (.invalidOutputRange typeName range value) ∨
      ∃ block, (rack.output request input).1 = .ok block ∧
        ∃ x ∈ block, Device.rescaleSample low high (rack.rangeOf input) x = value ∧
          node.range.contains value = false := by
  have hcustom : node.device.isCustom = false := by
    rw [hdevice]
    rfl
  have hinputs : node.device.inputs = [input] := by
    rw [hdevice]
    rfl
  obtain ⟨found, hmem, herror⟩ | ⟨feed, result, hfeed, hresult, hcheck⟩ :=
    h.exists_check_of_output hnode hcustom herror
  · rw [hinputs, List.mem_singleton] at hmem
    rw [hmem] at herror
    exact Or.inl herror
  · obtain ⟨hsource, hok⟩ := hfeed input (by simp [hinputs])
    have hmap : node.device.map feed = .rescaler (feed input) low high := by
      rw [hdevice]
      rfl
    rw [← hsource] at hrescales
    rw [hmap, Device.fill_rescaler hrescales] at hresult
    cases hresult
    obtain ⟨-, hmem, hout⟩ := Node.of_check_eq_error hcheck
    rw [h.block_store_rescaled hnode hdevice hok] at hmem
    obtain ⟨x, hx, hvalue⟩ := Array.mem_map.1 hmem
    rw [hsource] at hvalue
    exact Or.inr ⟨_, hok, x, Block.mem_of_mem_extract hx, hvalue, hout⟩

/--
A rescaler with finite limits whose input declares finite bounds writes samples between the limits
for all samples between the bounds, except that it writes NaN where a step of the arithmetic
overflows. So no call fails at the check of the node unless a sample of the input overflows.
-/
theorem rescaler_between_limits (h : rack.Reachable) (hnode : rack.nodes[id]? = some node)
    (hdevice : node.device = .rescaler input low high)
    (hrescales : Device.Rescales low high (rack.rangeOf input)) :
    node.range = Range.between low high ∧
      (∀ (request : Request) (phase : Float32) (feed : Feed), feed.range = rack.rangeOf input →
        feed.Keeps → ∃ result,
          (Device.rescaler feed low high).fill request phase = .ok result ∧
          result.samples = (feed.block.extract 0 request.frames).map
            (Device.rescaleSample low high feed.range) ∧
          ∀ x ∈ feed.block,
            isNaN (Device.rescaleSample low high feed.range x)
              = Device.overflows low high feed.range x ∧
            (Device.overflows low high feed.range x = false →
              node.range.contains (Device.rescaleSample low high feed.range x) = true)) ∧
      ∀ (request : Request) (typeName : String) (range : Range) (value : Float32),
        (∀ block, (rack.output request input).1 = .ok block →
          ∀ sample ∈ block, (rack.rangeOf input).contains sample = true) →
        (rack.output request id).1 = .error (.invalidOutputRange typeName range value) →
        (rack.output request input).1 = .error (.invalidOutputRange typeName range value) ∨
          isNaN value = true ∧ ∃ block, (rack.output request input).1 = .ok block ∧
            ∃ x ∈ block, Device.overflows low high (rack.rangeOf input) x = true := by
  have hwell := h.wellFormed
  have hrange := hwell.range_of_rescaler hnode hdevice
  refine ⟨hrange, ?_, ?_⟩
  · intro request phase feed hsource hkeeps
    rw [← hsource] at hrescales
    refine ⟨_, Device.fill_rescaler hrescales request phase, rfl, ?_⟩
    intro x hmem
    have hnan := hrescales.isNaN_eq_overflows (hkeeps x hmem)
    refine ⟨hnan, ?_⟩
    intro hnumber
    rw [hrange]
    exact hrescales.contains (hnan.trans hnumber)
  · intro request typeName range value hkeeps herror
    obtain hinput | ⟨block, hok, x, hmem, hvalue, hout⟩ :=
      hwell.exists_block_of_rescaler hnode hdevice hrescales herror
    · exact Or.inl hinput
    · subst hvalue
      have hnan : isNaN (Device.rescaleSample low high (rack.rangeOf input) x) = true := by
        rw [← Bool.not_eq_false]
        intro hnumber
        rw [hrange, hrescales.contains hnumber] at hout
        cases hout
      refine Or.inr ⟨hnan, block, hok, x, hmem, ?_⟩
      rw [← hrescales.isNaN_eq_overflows (hkeeps block hok x hmem)]
      exact hnan

def vibratoRack : Rack :=
  ((({} : Rack).add (.control 0)).2.add (.rescaler 0 200 400)).2

theorem reachable_vibrato : vibratoRack.Reachable := by
  apply Reachable.add
  · exact (Reachable.empty {}).add (by simp [Device.inputs])
  · simp [Device.inputs]

theorem rescaler_between_limits_vibrato :
    vibratoRack.Reachable ∧ ∃ node, vibratoRack.nodes[1]? = some node ∧
      node.device = .rescaler 0 200 400 ∧ Device.Rescales 200 400 (vibratoRack.rangeOf 0) ∧
      node.range = Range.between 200 400 ∧ ∃ result,
        (Device.rescaler Device.risingFeed 200 400).fill twoFrames 0 = .ok result ∧
        ∀ x ∈ Device.risingFeed.block.toList,
          node.range.contains (Device.rescaleSample 200 400 Range.bipolar x) = true := by
  obtain ⟨node, hnode, hdevice⟩ : ∃ node, vibratoRack.nodes[1]? = some node ∧
      node.device = .rescaler 0 200 400 := ⟨_, rfl, rfl⟩
  have hsource : Device.risingFeed.range = vibratoRack.rangeOf 0 := rfl
  have hrescales : Device.Rescales 200 400 (vibratoRack.rangeOf 0) := by
    rw [← hsource]
    exact Device.scales_octave.toRescales
  have hkeeps : ∀ x ∈ Device.risingFeed.block.toList,
      Range.bipolar.contains x = true ∧
        Device.overflows 200 400 Range.bipolar x = false := by decide +kernel
  obtain ⟨hrange, hfill, -⟩ := rescaler_between_limits reachable_vibrato hnode hdevice hrescales
  obtain ⟨result, hresult, -, hsamples⟩ := hfill twoFrames 0 Device.risingFeed hsource
    fun x hmem => (hkeeps x (Array.mem_toList_iff.2 hmem)).1
  refine ⟨reachable_vibrato, node, hnode, hdevice, hrescales, hrange, result, hresult, ?_⟩
  intro x hmem
  exact (hsamples x (Array.mem_toList_iff.1 hmem)).2 (hkeeps x hmem).2

def steepRack : Rack :=
  let source := (({} : Rack).add (.control 0)).2
  let factor := (source.add (.constant 3e38)).2
  let product := (factor.add (.multiply 0 1)).2
  (product.add (.rescaler 2 5 5)).2

def highRequest : Request :=
  { timestamp := 0, frames := 1, controls := ({} : Controls).set 0 1 }

theorem reachable_steep : steepRack.Reachable := by
  apply Reachable.add
  · apply Reachable.add
    · apply Reachable.add
      · exact (Reachable.empty {}).add (by simp [Device.inputs])
      · simp [Device.inputs]
    · simp [Device.inputs]
  · simp [Device.inputs]

theorem rescales_steep : Device.Rescales 5 5 (steepRack.rangeOf 2) := by
  have hbounded : (steepRack.rangeOf 2).Bounded := by
    constructor <;> decide +kernel
  exact ⟨by decide +kernel, by decide +kernel, hbounded⟩

theorem output_factors_steep :
    (steepRack.output highRequest 0).1 = .ok #[1] ∧
      (steepRack.output highRequest 1).1 = .ok #[3e38] := by
  obtain ⟨source, hsource, hcontrol, hlast, hrange, hidle⟩ : ∃ source,
      steepRack.nodes[0]? = some source ∧ source.device = .control 0 ∧ source.last = none ∧
        source.range = Range.bipolar ∧ source.recorder = none := ⟨_, rfl, rfl, rfl, rfl, rfl⟩
  obtain ⟨factor, hfactor, hconstant, hlast', hrange', hidle'⟩ : ∃ factor,
      steepRack.nodes[1]? = some factor ∧ factor.device = .constant 3e38 ∧ factor.last = none ∧
        factor.range = Range.point 3e38 ∧ factor.recorder = none := ⟨_, rfl, rfl, rfl, rfl, rfl⟩
  have hheld : highRequest.controls.get 0 = 1 := by decide +kernel
  have hcontains : Range.bipolar.contains 1 = true ∧ (Range.point 3e38).contains 3e38 = true := by
    decide +kernel
  constructor
  · refine (output_of_steady reachable_steep.wellFormed highRequest hsource
      (by rw [Node.isStale, hlast]) ?_ (hrange ▸ hcontains.1) (Node.room_of_idle hidle _)).1
    rw [hcontrol]
    exact hheld
  · refine (output_of_steady reachable_steep.wellFormed highRequest hfactor
      (by rw [Node.isStale, hlast']) ?_ (hrange' ▸ hcontains.2) (Node.room_of_idle hidle' _)).1
    rw [hconstant]
    rfl

def factorFeed (input : Nat) : Feed :=
  { range := steepRack.rangeOf input, block := if input = 0 then #[1] else #[3e38] }

theorem output_product_steep : (steepRack.output highRequest 2).1 = .ok #[3e38] := by
  obtain ⟨node, hnode, hdevice, hlast, hphase, hidle⟩ : ∃ node, steepRack.nodes[2]? = some node ∧
      node.device = .multiply 0 1 ∧ node.last = none ∧ node.phase = 0 ∧ node.recorder = none :=
    ⟨_, rfl, rfl, rfl, rfl, rfl⟩
  have hwell := reachable_steep.wellFormed
  have hfeeds : steepRack.Feeds highRequest node.device factorFeed := by
    refine ⟨fun _ _ => rfl, ?_⟩
    rw [hdevice]
    intro input hmem
    obtain rfl | rfl : input = 0 ∨ input = 1 := by simpa [Device.reads, Device.inputs] using hmem
    · exact output_factors_steep.1
    · exact output_factors_steep.2
  have hresult : (node.device.map factorFeed).fill highRequest.clamped node.phase
      = .ok { samples := #[3e38], phase := 0 } := by
    have hproduct : (Array.zipWith (· * ·) (#[1] : Block) #[3e38]).extract 0 1 = #[3e38] := by
      decide +kernel
    rw [hdevice, hphase, ← hproduct]
    rfl
  have hcontains : node.range.contains 3e38 = true := by
    rw [hwell.range_eq hnode, hdevice]
    decide +kernel
  apply hwell.output_of_feed hnode (by rw [Node.isStale, hlast]) (by rw [hdevice]; rfl)
    (Node.room_of_idle hidle _) hfeeds hresult
  · rw [hdevice]
    rfl
  · intro sample hmem
    rw [Array.mem_singleton.1 hmem]
    exact hcontains

def steepFeed (input : Nat) : Feed :=
  { range := steepRack.rangeOf input, block := #[3e38] }

theorem output_steep :
    steepRack.Reachable ∧ ∃ node, steepRack.nodes[3]? = some node ∧
      node.device = .rescaler 2 5 5 ∧ Device.Rescales 5 5 (steepRack.rangeOf 2) ∧
      (steepRack.output highRequest 2).1 = .ok #[3e38] ∧
      (steepRack.rangeOf 2).contains 3e38 = true ∧ ∃ value, isNaN value = true ∧
        (steepRack.output highRequest 3).1
          = .error (.invalidOutputRange "Rescaler" node.range value) := by
  obtain ⟨node, hnode, hdevice, hlast, hphase, hidle⟩ : ∃ node, steepRack.nodes[3]? = some node ∧
      node.device = .rescaler 2 5 5 ∧ node.last = none ∧ node.phase = 0 ∧ node.recorder = none :=
    ⟨_, rfl, rfl, rfl, rfl, rfl⟩
  have hwell := reachable_steep.wellFormed
  have hfeeds : steepRack.Feeds highRequest node.device steepFeed := by
    refine ⟨fun _ _ => rfl, ?_⟩
    rw [hdevice]
    intro input hmem
    obtain rfl : input = 2 := by simpa [Device.reads, Device.inputs] using hmem
    exact output_product_steep
  have hcontains : (steepRack.rangeOf 2).contains 3e38 = true := by decide +kernel
  have hnan : isNaN (Device.rescaleSample 5 5 (steepRack.rangeOf 2) 3e38) = true := by
    rw [rescales_steep.isNaN_eq_overflows hcontains]
    decide +kernel
  generalize hvalue : Device.rescaleSample 5 5 (steepRack.rangeOf 2) 3e38 = value at hnan
  have hresult : (node.device.map steepFeed).fill highRequest.clamped node.phase
      = .ok { samples := #[value], phase := 0 } := by
    have hfeed : Device.Rescales 5 5 (steepFeed 2).range := rescales_steep
    have hframes : highRequest.clamped.frames = 1 := rfl
    have hsamples : ((steepFeed 2).block.extract 0 highRequest.clamped.frames).map
        (Device.rescaleSample 5 5 (steepFeed 2).range) = #[value] := by
      rw [← hvalue, hframes]
      simp [steepFeed]
    rw [hdevice, hphase, ← hsamples]
    exact Device.fill_rescaler hfeed highRequest.clamped 0
  have hblock : (node.store highRequest.timestamp { samples := #[value], phase := 0 }).block
      highRequest.clamped.frames = #[value] := by
    apply Node.block_store
    rw [hdevice]
    rfl
  have hcheck : (node.store highRequest.timestamp { samples := #[value], phase := 0 }).check
      highRequest.clamped.frames = .error (.invalidOutputRange "Rescaler" node.range value) := by
    have hname : node.device.typeName = "Rescaler" := by
      rw [hdevice]
      rfl
    rw [← hname]
    apply Node.check_of_find
    rw [hblock]
    simp [Node.store, Range.contains_of_isNaN hnan]
  refine ⟨reachable_steep, node, hnode, hdevice, rescales_steep, output_product_steep, hcontains,
    value, hnan, ?_⟩
  rw [hwell.fst_output_of_feed hnode (by rw [Node.isStale, hlast]) (by rw [hdevice]; rfl)
    (Node.room_of_idle hidle _) hfeeds hresult, hcheck]
  rfl

end Rack
end PatchSynth
