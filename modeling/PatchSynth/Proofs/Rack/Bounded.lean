import PatchSynth.Proofs.Range
import PatchSynth.Proofs.Signal.Rack
import PatchSynth.Proofs.Rack.Rejection
import PatchSynth.Proofs.Rack.Raise
import PatchSynth.Proofs.Rack.Order

/-!
This module contains the devices that add, multiply and pan. The range that such a device declares
follows from what its inputs declare, and the samples that it computes stay in it, in spite of all
rounding.
-/

namespace PatchSynth

def Feed.Keeps (feed : Feed) : Prop :=
  ∀ sample ∈ feed.block, feed.range.contains sample = true

namespace Device

variable {ι κ : Type}

def isArithmetic : Device ι → Bool
  | .add _ _ | .multiply _ _ | .pan _ _ | .stereoAdd _ _ => true
  | _ => false

@[simp]
theorem isArithmetic_map (f : ι → κ) (device : Device ι) :
    (device.map f).isArithmetic = device.isArithmetic := by
  cases device <;> rfl

theorem isCustom_of_isArithmetic {device : Device ι} (h : device.isArithmetic = true) :
    device.isCustom = false := by
  cases device <;> first | rfl | cases h

/--
Whether a device computes sums or products of inputs that declare finite bounds in order. A position
has to be one between left and right.
-/
structure Bounded (device : Device Range) : Prop where
  isArithmetic : device.isArithmetic = true
  inputs : ∀ range ∈ device.inputs, range.Bounded
  demands : ∀ demand ∈ device.demands, demand.1.within demand.2 = true

theorem Bounded.range {device : Device Range} (h : device.Bounded) :
    device.range.isOrdered = true ∧ Single.isNaN device.range.min = false ∧
      Single.isNaN device.range.max = false := by
  obtain ⟨harithmetic, hinputs, -⟩ := h
  cases device with
  | add a b | stereoAdd a b =>
    have ha := hinputs a (by simp [Device.inputs])
    have hb := hinputs b (by simp [Device.inputs])
    exact Range.isOrdered_of_contains (Range.contains_add ha hb ha.contains_min hb.contains_min)
  | multiply a b =>
    have ha := hinputs a (by simp [Device.inputs])
    have hb := hinputs b (by simp [Device.inputs])
    exact Range.isOrdered_of_contains (Range.contains_mul ha hb ha.contains_min hb.contains_min)
  | pan input position =>
    have hinput := hinputs input (by simp [Device.inputs])
    exact Range.isOrdered_of_contains
      (Range.contains_withZero hinput hinput.contains_min Range.bounded_unipolar.contains_min)
  | _ => cases harithmetic

theorem exists_of_mem_extract_zipWith {α β γ : Type} {f : α → β → γ} {a : Array α} {b : Array β}
    {count : Nat} {value : γ} (h : value ∈ (Array.zipWith f a b).extract 0 count) :
    ∃ x ∈ a, ∃ y ∈ b, f x y = value := by
  obtain ⟨i, hi, hvalue⟩ := Array.mem_iff_getElem.1 h
  rw [Array.getElem_extract, Array.getElem_zipWith] at hvalue
  exact ⟨_, Array.getElem_mem _, _, Array.getElem_mem _, hvalue⟩

theorem Bounded.fill {device : Device Feed} (h : (device.map (·.range)).Bounded)
    (hkeeps : ∀ feed ∈ device.inputs, feed.Keeps) (request : Request) (phase : Float32) :
    ∃ result, device.fill request phase = .ok result ∧
      ∀ sample ∈ result.samples, (device.map (·.range)).range.contains sample = true := by
  obtain ⟨harithmetic, hinputs, hdemands⟩ := h
  have hbounded : ∀ feed ∈ device.inputs, feed.range.Bounded := by
    intro feed hmem
    apply hinputs
    rw [inputs_map]
    exact List.mem_map_of_mem hmem
  cases device with
  | add a b | stereoAdd a b =>
    refine ⟨_, rfl, ?_⟩
    intro sample hmem
    obtain ⟨x, hx, y, hy, rfl⟩ := exists_of_mem_extract_zipWith hmem
    exact Range.contains_add (hbounded a (by simp [Device.inputs]))
      (hbounded b (by simp [Device.inputs])) (hkeeps a (by simp [Device.inputs]) x hx)
      (hkeeps b (by simp [Device.inputs]) y hy)
  | multiply a b =>
    refine ⟨_, rfl, ?_⟩
    intro sample hmem
    obtain ⟨x, hx, y, hy, rfl⟩ := exists_of_mem_extract_zipWith hmem
    exact Range.contains_mul (hbounded a (by simp [Device.inputs]))
      (hbounded b (by simp [Device.inputs])) (hkeeps a (by simp [Device.inputs]) x hx)
      (hkeeps b (by simp [Device.inputs]) y hy)
  | pan input position =>
    refine ⟨_, rfl, ?_⟩
    intro sample hmem
    obtain ⟨pair, hpair, hsample⟩ := Array.mem_flatMap.1 hmem
    obtain ⟨x, hx, y, hy, rfl⟩ := exists_of_mem_extract_zipWith hpair
    have hwithin : position.range.within Range.bipolar = true :=
      hdemands (position.range, Range.bipolar) (by simp [Device.map, Device.demands])
    obtain ⟨hleft, hright⟩ := Range.contains_panSample (hbounded input (by simp [Device.inputs]))
      (hkeeps input (by simp [Device.inputs]) x hx)
      (Range.contains_of_within hwithin (hkeeps position (by simp [Device.inputs]) y hy))
    simp only [List.mem_toArray, List.mem_cons, List.not_mem_nil, or_false] at hsample
    obtain rfl | rfl := hsample
    · exact hleft
    · exact hright
  | _ => cases harithmetic

theorem inputChannels_cases (device : Device ι) :
    device.inputChannels = 1 ∨ ∃ a b, device = .stereoAdd a b := by
  cases device with
  | stereoAdd a b => exact Or.inr ⟨a, b, rfl⟩
  | _ => exact Or.inl rfl

theorem size_samples_of_isArithmetic {device : Device Feed} {request : Request} {phase : Float32}
    {result : Fill} (harithmetic : device.isArithmetic = true)
    (hfeeds : ∀ feed ∈ device.inputs, request.frames * device.inputChannels ≤ feed.block.size)
    (h : device.fill request phase = .ok result) :
    result.samples.size = request.frames * device.channels := by
  cases device with
  | add a b | multiply a b | stereoAdd a b =>
    have ha := hfeeds a (by simp [inputs])
    have hb := hfeeds b (by simp [inputs])
    cases h
    rw [Array.size_extract, Array.size_zipWith]
    simp only [inputChannels, channels, isStereo, Bool.false_eq_true, reduceIte] at *
    omega
  | pan input position =>
    have hinput := hfeeds input (by simp [inputs])
    have hposition := hfeeds position (by simp [inputs])
    cases h
    rw [size_flatMap_pair, Array.size_extract, Array.size_zipWith]
    simp only [inputChannels, channels, isStereo, reduceIte] at *
    omega
  | _ => cases harithmetic

end Device

theorem Node.mem_of_mem_block_store {node : Node} {timestamp frames : Nat} {fill : Fill}
    {sample : Float32} (h : sample ∈ (node.store timestamp fill).block frames) :
    sample ∈ fill.samples ∨ sample ∈ node.buffer := by
  have htake := List.mem_of_mem_take (Node.toList_block _ _ ▸ Array.mem_toList_iff.2 h)
  simp only [Node.store, Array.toList_append, Array.toList_extract, List.extract_eq_take_drop,
    List.mem_append, Array.mem_toList_iff] at htake
  obtain hmem | hmem := htake
  · exact Or.inl hmem
  · exact Or.inr (Array.mem_toList_iff.1 (List.mem_of_mem_drop (List.mem_of_mem_take hmem)))

namespace Rack

variable {rack : Rack} {request : Request} {id : Nat} {node : Node}

theorem WellFormed.exists_check_of_output (h : rack.WellFormed) {typeName : String} {range : Range}
    {value : Float32} (hnode : rack.nodes[id]? = some node)
    (hstandard : node.device.isCustom = false)
    (herror : (rack.output request id).1 = .error (.invalidOutputRange typeName range value)) :
    (∃ input ∈ node.device.inputs,
        (rack.output request input).1 = .error (.invalidOutputRange typeName range value)) ∨
      ∃ (feed : Nat → Feed) (result : Fill),
        (∀ input ∈ node.device.inputs, (feed input).range = rack.rangeOf input ∧
          (rack.output request input).1 = .ok (feed input).block) ∧
        (node.device.map feed).fill request.clamped node.phase = .ok result ∧
        (node.store request.timestamp result).check request.clamped.frames
          = .error (.invalidOutputRange typeName range value) := by
  have hreads : node.device.reads = node.device.inputs := Device.reads_eq_inputs hstandard
  have hpull : ∀ input ∈ node.device.inputs,
      rack.pulledBelow request.clamped id input = rack.pulled request.clamped input :=
    fun input hmem => pulledBelow_of_lt (h.inputs_lt hnode input hmem)
  rw [fst_output_eq_error_iff, pulled_eq, hnode] at herror
  dsimp only at herror
  split at herror
  next =>
    unfold evaluated at herror
    obtain hdemands | ⟨-, -, herror⟩ := error_of_bind herror
    · obtain ⟨_, _, _, _, ⟨⟩⟩ := isInputRange_of_checkDemands hdemands
    obtain hfirst | ⟨⟨⟩, hfirst, herror⟩ := error_of_bind herror
    · obtain ⟨input, hmem, hinput⟩ := List.mem_map.1 (mem_of_firstError hfirst)
      rw [hreads] at hmem
      rw [hpull input hmem] at hinput
      exact Or.inl ⟨input, hmem, fst_output_eq_error_iff.2 hinput⟩
    obtain hfill | ⟨result, hfill, herror⟩ := error_of_bind herror
    · have hcustom := hstandard
      rw [← Device.isCustom_map (rack.feedFrom request.clamped.frames _)] at hcustom
      cases Device.of_fill_eq_error hcustom hfill
    obtain hrecorded | ⟨-, -, herror⟩ := error_of_bind herror
    · obtain ⟨_, _, _, _, ⟨⟩⟩ := Node.exists_of_recorded_eq_error hrecorded
    obtain hcheck | ⟨-, -, herror⟩ := error_of_bind herror
    · refine Or.inr ⟨_, result, ?_, hfill, hcheck⟩
      intro input hmem
      rw [firstError_eq_ok_iff] at hfirst
      obtain ⟨read, hread⟩ := hfirst _ (List.mem_map_of_mem (hreads ▸ hmem))
      refine ⟨rfl, ?_⟩
      rw [fst_output_eq_pulled, ← hpull input hmem, feedFrom, hread]
      rfl
    · cases herror
  next => cases herror

theorem WellFormed.size_of_output (h : rack.WellFormed) (hnode : rack.nodes[id]? = some node)
    {block : Block} (hok : (rack.output request id).1 = .ok block) :
    block.size = request.clamped.frames * node.device.channels := by
  have hframes : request.clamped.frames ≤ maxFrames := Nat.min_le_right _ _
  obtain ⟨after, hafter, hdevice, -⟩ :=
    exists_of_shape (shape_refresh request.clamped rack id).symm hnode
  have hrefresh := refresh_of_output hok
  rw [fst_output_clamped, hrefresh] at hok
  cases hok
  rw [blockOf, hafter, Node.size_block ((h.refresh hframes id).sound hafter) hframes, hdevice]

theorem isStereo_eq (hnode : rack.nodes[id]? = some node) :
    rack.isStereo id = node.device.isStereo := by
  simp only [isStereo, hnode]

theorem WellFormed.exists_stereoAdd (h : rack.WellFormed) (hnode : rack.nodes[id]? = some node)
    {input : Nat} (hmem : input ∈ node.device.inputs) {block : Block}
    (hok : (rack.output request input).1 = .ok block)
    (hshort : block.size < request.clamped.frames * node.device.inputChannels) :
    ∃ a b, node.device = .stereoAdd a b ∧ (rack.isStereo a = false ∨ rack.isStereo b = false) := by
  obtain ⟨hid, -⟩ := Array.getElem?_eq_some_iff.1 hnode
  have hlt : input < rack.nodes.size := Nat.lt_trans (h.inputs_lt hnode input hmem) hid
  obtain ⟨source, hsource⟩ : ∃ source, rack.nodes[input]? = some source :=
    ⟨_, Array.getElem?_eq_getElem hlt⟩
  have hchannels : source.device.channels < node.device.inputChannels := by
    rw [h.size_of_output hsource hok] at hshort
    exact Nat.lt_of_mul_lt_mul_left hshort
  have hone := source.device.one_le_channels
  obtain hmono | ⟨a, b, hdevice⟩ := node.device.inputChannels_cases
  · omega
  have hstereo : rack.isStereo input = false := by
    rw [isStereo_eq hsource, Bool.eq_false_iff]
    intro hstereo
    rw [Device.channels, if_pos hstereo, hdevice] at hchannels
    exact Nat.lt_irrefl 2 hchannels
  refine ⟨a, b, hdevice, ?_⟩
  rw [hdevice] at hmem
  obtain rfl | rfl : input = a ∨ input = b := by simpa [Device.inputs] using hmem
  · exact Or.inl hstereo
  · exact Or.inr hstereo

theorem WellFormed.exists_fill_of_bounded (h : rack.WellFormed)
    (hnode : rack.nodes[id]? = some node) (hbounded : (node.device.map rack.rangeOf).Bounded)
    (request : Request) (phase : Float32) {feed : Nat → Feed}
    (hfeed : ∀ input ∈ node.device.inputs,
      (feed input).range = rack.rangeOf input ∧ (feed input).Keeps) :
    ∃ result, (node.device.map feed).fill request phase = .ok result ∧
      ∀ sample ∈ result.samples, node.range.contains sample = true := by
  have hmap : (node.device.map feed).map (·.range) = node.device.map rack.rangeOf := by
    rw [Device.map_map]
    exact Device.map_congr fun input hmem => (hfeed input hmem).1
  rw [h.range_eq hnode, ← hmap]
  rw [← hmap] at hbounded
  refine hbounded.fill ?_ request phase
  intro found hmem
  rw [Device.inputs_map] at hmem
  obtain ⟨input, hinput, rfl⟩ := List.mem_map.1 hmem
  exact (hfeed input hinput).2

theorem WellFormed.exists_stereoAdd_of_left (h : rack.WellFormed)
    (hnode : rack.nodes[id]? = some node) (harithmetic : node.device.isArithmetic = true)
    {feed : Nat → Feed} (hfeed : ∀ input ∈ node.device.inputs,
      (rack.output request input).1 = .ok (feed input).block) {result : Fill}
    (hresult : (node.device.map feed).fill request.clamped node.phase = .ok result)
    {sample : Float32}
    (hmem : sample ∈ (node.store request.timestamp result).block request.clamped.frames)
    (hnot : sample ∉ result.samples) :
    ∃ a b, node.device = .stereoAdd a b ∧ (rack.isStereo a = false ∨ rack.isStereo b = false) ∧
      sample ∈ node.buffer := by
  obtain hwritten | hleft := Node.mem_of_mem_block_store hmem
  · exact absurd hwritten hnot
  -- The device has left samples out, and so an input has handed out too few.
  obtain ⟨input, hinput, hshort⟩ : ∃ input ∈ node.device.inputs,
      (feed input).block.size < request.clamped.frames * node.device.inputChannels := by
    by_contra hwide
    push Not at hwide
    have hsize : result.samples.size = request.clamped.frames * node.device.channels := by
      rw [← Device.channels_map feed]
      refine Device.size_samples_of_isArithmetic (by simpa using harithmetic) ?_ hresult
      intro found hfound
      rw [Device.inputs_map] at hfound
      obtain ⟨input, hinput, rfl⟩ := List.mem_map.1 hfound
      rw [Device.inputChannels_map]
      exact hwide input hinput
    rw [Node.block_store _ hsize] at hmem
    exact hnot hmem
  obtain ⟨a, b, hdevice, hmono⟩ := h.exists_stereoAdd hnode hinput (hfeed input hinput) hshort
  exact ⟨a, b, hdevice, hmono, hleft⟩

/--
Sums, products and panned signals keep the declared range. The range of a node whose inputs declare
finite bounds has bounds in order, and on blocks that keep the ranges of the inputs the node
computes samples that keep its own, however the samples are rounded. So no call fails at the check
of the node, unless it is a sum of stereo signals with a mono input: for frames that such an input
does not reach, the buffer holds what it held before.
-/
theorem keeps_of_bounded (hrack : rack.Reachable) (hnode : rack.nodes[id]? = some node)
    (hbounded : (node.device.map rack.rangeOf).Bounded) :
    (node.range.isOrdered = true ∧ Single.isNaN node.range.min = false ∧
      Single.isNaN node.range.max = false) ∧
    (∀ (request : Request) (phase : Float32) (feed : Nat → Feed),
      (∀ input ∈ node.device.inputs, (feed input).range = rack.rangeOf input ∧
        (feed input).Keeps) →
      ∃ result, (node.device.map feed).fill request phase = .ok result ∧
        ∀ sample ∈ result.samples, node.range.contains sample = true) ∧
    ∀ (request : Request) (typeName : String) (range : Range) (value : Float32),
      (∀ input ∈ node.device.inputs, ∀ block, (rack.output request input).1 = .ok block →
        ∀ sample ∈ block, (rack.rangeOf input).contains sample = true) →
      (rack.output request id).1 = .error (.invalidOutputRange typeName range value) →
      (∃ input ∈ node.device.inputs,
        (rack.output request input).1 = .error (.invalidOutputRange typeName range value)) ∨
      ∃ a b, node.device = .stereoAdd a b ∧ (rack.isStereo a = false ∨ rack.isStereo b = false) ∧
        value ∈ node.buffer := by
  have hwell := hrack.wellFormed
  have harithmetic : node.device.isArithmetic = true := by
    simpa using hbounded.isArithmetic
  refine ⟨hwell.range_eq hnode ▸ hbounded.range, fun request phase feed hfeed =>
    hwell.exists_fill_of_bounded hnode hbounded request phase hfeed, ?_⟩
  intro request typeName range value hkeeps herror
  obtain hinput | ⟨feed, result, hfeed, hresult, hcheck⟩ := hwell.exists_check_of_output hnode
    (Device.isCustom_of_isArithmetic harithmetic) herror
  · exact Or.inl hinput
  apply Or.inr
  have hblocks : ∀ input ∈ node.device.inputs, (feed input).range = rack.rangeOf input ∧
      (feed input).Keeps := by
    intro input hmem
    obtain ⟨hsource, hok⟩ := hfeed input hmem
    refine ⟨hsource, ?_⟩
    rw [Feed.Keeps, hsource]
    exact hkeeps input hmem _ hok
  obtain ⟨_, hfound, hcontains⟩ :=
    hwell.exists_fill_of_bounded hnode hbounded request.clamped node.phase hblocks
  rw [hresult] at hfound
  cases hfound
  obtain ⟨-, hmem, hout⟩ := Node.of_check_eq_error hcheck
  have hnot : value ∉ result.samples := by
    intro hwritten
    have hin : node.range.contains value = false := hout
    rw [hcontains value hwritten] at hin
    cases hin
  exact hwell.exists_stereoAdd_of_left hnode harithmetic
    (fun input hinput => (hfeed input hinput).2) hresult hmem hnot

def productRack : Rack :=
  let source := (({} : Rack).add (.control 0)).2
  let factor := (source.add (.constant (-2))).2
  (factor.add (.multiply 0 1)).2

theorem reachable_product : productRack.Reachable := by
  apply Reachable.add
  · apply Reachable.add
    · exact (Reachable.empty {}).add (by simp [Device.inputs])
    · simp [Device.inputs]
  · simp [Device.inputs]

theorem bounded_product : ((Device.multiply 0 1).map productRack.rangeOf).Bounded := by
  have hsource : (productRack.rangeOf 0).Bounded := by
    constructor <;> decide +kernel
  have hfactor : (productRack.rangeOf 1).Bounded := by
    constructor <;> decide +kernel
  refine ⟨rfl, ?_, ?_⟩
  · simp [Device.map, Device.inputs, hsource, hfactor]
  · simp [Device.map, Device.demands]

def productFeed (input : Nat) : Feed :=
  { range := productRack.rangeOf input, block := if input = 0 then #[0.5, -1] else #[-2, -2] }

theorem keeps_productFeed (input : Nat) (h : input ∈ (Device.multiply 0 1).inputs) :
    (productFeed input).Keeps := by
  have hkeeps : ∀ input ∈ [0, 1], ∀ sample ∈ (productFeed input).block.toList,
      (productFeed input).range.contains sample = true := by
    decide +kernel
  intro sample hmem
  exact hkeeps input h sample (Array.mem_toList_iff.2 hmem)

theorem keeps_of_bounded_product :
    productRack.Reachable ∧ ∃ node, productRack.nodes[2]? = some node ∧
      (node.device.map productRack.rangeOf).Bounded ∧ node.range.isOrdered = true ∧
      ∃ result, (node.device.map productFeed).fill twoFrames 0 = .ok result ∧
        ∀ sample ∈ result.samples, node.range.contains sample = true := by
  obtain ⟨node, hnode, hdevice⟩ : ∃ node, productRack.nodes[2]? = some node ∧
      node.device = .multiply 0 1 := ⟨_, rfl, rfl⟩
  have hbounded : (node.device.map productRack.rangeOf).Bounded := by
    rw [hdevice]
    exact bounded_product
  obtain ⟨⟨hordered, -⟩, hfill, -⟩ := keeps_of_bounded reachable_product hnode hbounded
  refine ⟨reachable_product, node, hnode, hbounded, hordered, hfill twoFrames 0 productFeed ?_⟩
  intro input hmem
  rw [hdevice] at hmem
  exact ⟨rfl, keeps_productFeed input hmem⟩

def monoSumRack : Rack :=
  ((({} : Rack).add (.constant 1)).2.add (.stereoAdd 0 0)).2

def oneFrame : Request :=
  { timestamp := 0, frames := 1, controls := {} }

theorem reachable_monoSum : monoSumRack.Reachable := by
  apply Reachable.add
  · exact (Reachable.empty {}).add (by simp [Device.inputs])
  · simp [Device.inputs]

theorem bounded_monoSum : ((Device.stereoAdd 0 0).map monoSumRack.rangeOf).Bounded := by
  have hsource : (monoSumRack.rangeOf 0).Bounded := by
    constructor <;> decide +kernel
  refine ⟨rfl, ?_, ?_⟩
  · simp [Device.map, Device.inputs, hsource]
  · simp [Device.map, Device.demands]

theorem pulled_one_monoSum :
    ∃ read, monoSumRack.pulled oneFrame 0 = .ok read ∧ read.block 1 = #[1] := by
  obtain ⟨source, hsource, hconstant, hlast, hrange, hrecorder⟩ : ∃ source,
      monoSumRack.nodes[0]? = some source ∧ source.device = .constant 1 ∧ source.last = none ∧
        source.range = Range.point 1 ∧ source.recorder = none := ⟨_, rfl, rfl, rfl, rfl, rfl⟩
  have hcontains : (Range.point 1).contains 1 = true := by decide +kernel
  refine exists_pulled_of_steady reachable_monoSum.wellFormed (by decide) hsource
    (by rw [Node.isStale, hlast]) ?_ (hrange ▸ hcontains) ?_
  · rw [hconstant]
    rfl
  · rw [hrecorder]
    rintro _ ⟨⟩

theorem block_store_half {node : Node} {timestamp count : Nat} {phase sample : Float32}
    (hstereo : node.device.channels = 2) (hbuffer : node.buffer = Array.replicate (count + 2) 0) :
    (node.store timestamp { samples := #[sample], phase }).block 1 = #[sample, 0] := by
  apply Array.toList_inj.1
  rw [Node.toList_block]
  simp [Node.store, hstereo, hbuffer, List.replicate_succ]

theorem check_monoSum {node : Node} (hdevice : node.device = .stereoAdd 0 0)
    (hrange : node.range = (Range.point 1).add (Range.point 1))
    (hbuffer : node.buffer = Array.replicate (7998 + 2) 0) :
    (node.store 0 { samples := #[1 + 1], phase := 0 }).check 1
      = .error (.invalidOutputRange "StereoAdd" node.range 0) := by
  have hstereo : node.device.channels = 2 := by
    rw [hdevice]
    rfl
  have hfind : (#[1 + 1, 0] : Block).find? (fun sample => !node.range.contains sample)
      = some 0 := by
    rw [hrange]
    decide +kernel
  rw [← block_store_half hstereo hbuffer] at hfind
  have hname : node.device.typeName = "StereoAdd" := by
    rw [hdevice]
    rfl
  rw [← hname]
  exact Node.check_of_find hfind

theorem output_monoSum :
    monoSumRack.Reachable ∧ ∃ node, monoSumRack.nodes[1]? = some node ∧
      (node.device.map monoSumRack.rangeOf).Bounded ∧
      (∀ input ∈ node.device.inputs, (monoSumRack.output oneFrame input).1 = .ok #[1] ∧
        (monoSumRack.rangeOf input).contains 1 = true) ∧
      (monoSumRack.output oneFrame 1).1
        = .error (.invalidOutputRange "StereoAdd" node.range 0) := by
  obtain ⟨node, hnode, hdevice, hstale, hphase, hnone, hbuffer⟩ : ∃ node,
      monoSumRack.nodes[1]? = some node ∧ node.device = .stereoAdd 0 0 ∧
        node.isStale 0 = true ∧ node.phase = 0 ∧ node.recorder = none ∧
        node.buffer = Array.replicate (7998 + 2) 0 := ⟨_, rfl, rfl, rfl, rfl, rfl, rfl⟩
  have hrange : node.range = (Range.point 1).add (Range.point 1) := by
    rw [reachable_monoSum.wellFormed.range_eq hnode, hdevice]
    rfl
  have hclamped : oneFrame.clamped = oneFrame := rfl
  obtain ⟨read, hread, hblock⟩ := pulled_one_monoSum
  refine ⟨reachable_monoSum, node, hnode, hdevice ▸ bounded_monoSum, ?_, ?_⟩
  · intro input hmem
    obtain rfl : input = 0 := by simpa [hdevice, Device.inputs] using hmem
    have hcontains : (monoSumRack.rangeOf 0).contains 1 = true := by decide +kernel
    refine ⟨?_, hcontains⟩
    rw [fst_output_eq_pulled, hclamped, hread]
    exact congrArg Except.ok hblock
  · have hpull : monoSumRack.pulledBelow oneFrame 1 0 = .ok read := hread
    have hfeed : (monoSumRack.feedFrom oneFrame.frames (monoSumRack.pulledBelow oneFrame 1) 0).block
        = #[1] := by
      rw [feedFrom, hpull]
      exact hblock
    have hsum : (Array.zipWith (· + ·) (#[1] : Block) #[1]).extract 0 (2 * oneFrame.frames)
        = #[1 + 1] := by
      decide +kernel
    rw [fst_output_eq_error_iff, hclamped, pulled_of_stale hnode hstale]
    refine evaluated_of_check ?_ ?_ ?_ ?_
      (check_monoSum hdevice hrange hbuffer)
    · rw [hdevice]
      rfl
    · rw [hdevice]
      intro input hmem
      obtain rfl : input = 0 := by simpa [Device.reads, Device.inputs] using hmem
      exact ⟨read, hpull⟩
    · rw [hdevice, hphase]
      simp only [Device.map, Device.fill, hfeed, hsum]
    · have hidle : (node.touch.store 0 { samples := #[1 + 1], phase := 0 }).recorder = none := hnone
      simp only [Node.recorded, oneFrame, hidle]

end Rack
end PatchSynth
