import PatchSynth.Patch.Basic
import PatchSynth.Proofs.Rack.Mirror
import PatchSynth.Proofs.Table

/-!
This module contains the unfolding of a rack: every reference to a node gets a copy of its own of
that node and of all that the node is wired to. `Patch.references_unfold` says that nothing is
shared in an unfolding, and `Faithful.mirrors` that it mirrors the rack that it was made from.
-/

namespace PatchSynth

namespace Device

variable {ι κ σ : Type}

def thread (f : ι → σ → κ × σ) : Device ι → σ → Device κ × σ
  | .constant value, state => (.constant value, state)
  | .control axis, state => (.control axis, state)
  | .oscillator waveform frequency, state =>
    let (frequency, state) := f frequency state
    (.oscillator waveform frequency, state)
  | .add a b, state =>
    let (a, state) := f a state
    let (b, state) := f b state
    (.add a b, state)
  | .multiply a b, state =>
    let (a, state) := f a state
    let (b, state) := f b state
    (.multiply a b, state)
  | .rescaler input low high, state =>
    let (input, state) := f input state
    (.rescaler input low high, state)
  | .pan input position, state =>
    let (input, state) := f input state
    let (position, state) := f position state
    (.pan input position, state)
  | .stereoAdd a b, state =>
    let (a, state) := f a state
    let (b, state) := f b state
    (.stereoAdd a b, state)
  | .custom processor inputs, state =>
    let (inputs, state) := go inputs state
    (.custom processor inputs, state)
where
  go : List ι → σ → List κ × σ
    | [], state => ([], state)
    | input :: rest, state =>
      let (input, state) := f input state
      let (rest, state) := go rest state
      (input :: rest, state)

section

variable {f : ι → σ → κ × σ} {P : σ → Prop} {label : σ → κ → Option ι}

def Labels (P : σ → Prop) (label : σ → κ → Option ι) (f : ι → σ → κ × σ) (input : ι) : Prop :=
  ∀ state, P state →
    P (f input state).2 ∧
    label (f input state).2 (f input state).1 = some input ∧
    ∀ other from', label state other = some from' → label (f input state).2 other = some from'

theorem thread_go_label {inputs : List ι} (hf : ∀ input ∈ inputs, Labels P label f input)
    {state : σ} (hstate : P state) :
    P (thread.go f inputs state).2 ∧
    (thread.go f inputs state).1.map (label (thread.go f inputs state).2) = inputs.map some ∧
    ∀ other from', label state other = some from' →
      label (thread.go f inputs state).2 other = some from' := by
  induction inputs generalizing state with
  | nil => exact ⟨hstate, rfl, fun _ _ h => h⟩
  | cons input rest ih =>
    obtain ⟨hnext, hinput, hold⟩ := hf input (List.mem_cons_self ..) state hstate
    obtain ⟨hlast, hrest, hnew⟩ :=
      ih (fun input hmem => hf input (List.mem_cons_of_mem _ hmem)) hnext
    refine ⟨hlast, ?_, fun other from' h => hnew other from' (hold other from' h)⟩
    have hinput := hnew _ _ hinput
    simp only [thread.go, List.map_cons, List.cons.injEq]
    exact ⟨hinput, hrest⟩

theorem thread_label {device : Device ι} (hf : ∀ input ∈ device.inputs, Labels P label f input)
    {state : σ} (hstate : P state) :
    P (device.thread f state).2 ∧
    (device.thread f state).1.map (label (device.thread f state).2) = device.map some ∧
    ∀ other from', label state other = some from' →
      label (device.thread f state).2 other = some from' := by
  have hone : ∀ {a : ι}, Labels P label f a →
      P (f a state).2 ∧ label (f a state).2 (f a state).1 = some a ∧
      ∀ other from', label state other = some from' → label (f a state).2 other = some from' :=
    fun ha => ha state hstate
  have htwo : ∀ {a b : ι}, Labels P label f a → Labels P label f b →
      P (f b (f a state).2).2 ∧
      (label (f b (f a state).2).2 (f a state).1 = some a ∧
        label (f b (f a state).2).2 (f b (f a state).2).1 = some b) ∧
      ∀ other from', label state other = some from' →
        label (f b (f a state).2).2 other = some from' := by
    intro a b ha hb
    obtain ⟨hnext, hinput, hold⟩ := ha state hstate
    obtain ⟨hlast, hinput', hnew⟩ := hb _ hnext
    exact ⟨hlast, ⟨hnew _ _ hinput, hinput'⟩, fun other from' h => hnew _ _ (hold _ _ h)⟩
  cases device with
  | constant value => exact ⟨hstate, rfl, fun _ _ h => h⟩
  | control axis => exact ⟨hstate, rfl, fun _ _ h => h⟩
  | oscillator waveform frequency =>
    obtain ⟨hlast, hinput, hold⟩ := hone (hf frequency (by simp [inputs]))
    exact ⟨hlast, by simp [thread, map, hinput], hold⟩
  | rescaler input low high =>
    obtain ⟨hlast, hinput, hold⟩ := hone (hf input (by simp [inputs]))
    exact ⟨hlast, by simp [thread, map, hinput], hold⟩
  | add a b =>
    obtain ⟨hlast, hinputs, hold⟩ := htwo (hf a (by simp [inputs])) (hf b (by simp [inputs]))
    exact ⟨hlast, by simp [thread, map, hinputs], hold⟩
  | multiply a b =>
    obtain ⟨hlast, hinputs, hold⟩ := htwo (hf a (by simp [inputs])) (hf b (by simp [inputs]))
    exact ⟨hlast, by simp [thread, map, hinputs], hold⟩
  | pan input position =>
    obtain ⟨hlast, hinputs, hold⟩ :=
      htwo (hf input (by simp [inputs])) (hf position (by simp [inputs]))
    exact ⟨hlast, by simp [thread, map, hinputs], hold⟩
  | stereoAdd a b =>
    obtain ⟨hlast, hinputs, hold⟩ := htwo (hf a (by simp [inputs])) (hf b (by simp [inputs]))
    exact ⟨hlast, by simp [thread, map, hinputs], hold⟩
  | custom processor ids =>
    obtain ⟨hlast, hinputs, hold⟩ := thread_go_label hf hstate
    refine ⟨hlast, ?_, hold⟩
    exact congrArg (Device.custom processor) hinputs

end

theorem inputs_thread (f : ι → σ → κ × σ) (device : Device ι) (state : σ) :
    (device.thread f state).1.inputs = (thread.go f device.inputs state).1 := by
  cases device <;> rfl

theorem snd_thread (f : ι → σ → κ × σ) (device : Device ι) (state : σ) :
    (device.thread f state).2 = (thread.go f device.inputs state).2 := by
  cases device <;> rfl

end Device

structure Unfolding where
  rack : Rack := {}
  origins : Array Nat := #[]

namespace Unfolding

def add (unfolding : Unfolding) (id : Nat) (device : Device Nat) : Nat × Unfolding :=
  let (copy, rack) := unfolding.rack.add device
  (copy, { rack, origins := unfolding.origins.push id })

def copyWithin (source : Rack) : Nat → Nat → Unfolding → Nat × Unfolding
  | 0, _, unfolding => (unfolding.rack.nodes.size, unfolding)
  | depth + 1, id, unfolding =>
    match source.nodes[id]? with
    | none => (unfolding.rack.nodes.size, unfolding)
    | some node =>
      let (device, unfolding) := node.device.thread (copyWithin source depth) unfolding
      unfolding.add id device

/--
Build a copy of a node and of all that it is wired to. Nothing of it is a copy that stood before.
-/
def copy (source : Rack) (id : Nat) (unfolding : Unfolding) : Nat × Unfolding :=
  copyWithin source (id + 1) id unfolding

def copyEntries (source : Rack) :
    List (String × Nat) → Unfolding → List (String × Nat) × Unfolding
  | [], unfolding => ([], unfolding)
  | (name, id) :: rest, unfolding =>
    let (id, unfolding) := unfolding.copy source id
    let (rest, unfolding) := copyEntries source rest unfolding
    ((name, id) :: rest, unfolding)

end Unfolding

def Patch.unfold (patch : Patch) : Patch :=
  let (entries, unfolding) :=
    Unfolding.copyEntries patch.rack patch.table.entries { rack := { files := patch.rack.files } }
  { rack := unfolding.rack, table := { entries } }

namespace Unfolding

theorem copyWithin_of_some {source : Rack} {id : Nat} {node : Node}
    (hnode : source.nodes[id]? = some node) (depth : Nat) (unfolding : Unfolding) :
    copyWithin source (depth + 1) id unfolding
      = (node.device.thread (copyWithin source depth) unfolding).2.add id
          (node.device.thread (copyWithin source depth) unfolding).1 := by
  simp only [copyWithin, hnode]

def references (unfolding : Unfolding) : List Nat :=
  unfolding.rack.nodes.toList.flatMap (·.device.inputs)

/--
Whether every node is referred to exactly once, by a node or by one of the roots.
-/
def Private (unfolding : Unfolding) (roots : List Nat) : Prop :=
  (unfolding.references ++ roots).Perm (List.range unfolding.rack.nodes.size)

theorem Private.add {unfolding : Unfolding} {roots : List Nat} {device : Device Nat}
    (h : unfolding.Private (device.inputs ++ roots)) (id : Nat) :
    (unfolding.add id device).2.Private ((unfolding.add id device).1 :: roots) := by
  have hsize : (unfolding.add id device).2.rack.nodes.size = unfolding.rack.nodes.size + 1 := by
    simp [Unfolding.add]
  have hreferences : (unfolding.add id device).2.references
      = unfolding.references ++ device.inputs := by
    simp [Unfolding.add, references, Rack.add]
  unfold Private at *
  rw [hsize, hreferences, List.range_succ]
  -- The copies of the inputs were roots, and are referred to by the new node now.
  have hmiddle :
      (unfolding.references ++ device.inputs ++ (unfolding.add id device).1 :: roots).Perm
        ((unfolding.references ++ (device.inputs ++ roots)) ++ [unfolding.rack.nodes.size]) := by
    rw [← List.append_assoc]
    apply List.perm_middle.trans
    exact (List.perm_append_singleton _ _).symm
  exact hmiddle.trans (h.append_right _)

theorem Private.thread_go {f : Nat → Unfolding → Nat × Unfolding} {inputs : List Nat}
    (hf : ∀ input ∈ inputs, ∀ unfolding roots, unfolding.Private roots →
      (f input unfolding).2.Private ((f input unfolding).1 :: roots))
    {unfolding : Unfolding} {roots : List Nat} (h : unfolding.Private roots) :
    (Device.thread.go f inputs unfolding).2.Private
      ((Device.thread.go f inputs unfolding).1 ++ roots) := by
  induction inputs generalizing unfolding roots with
  | nil => exact h
  | cons input rest ih =>
    have hfirst := hf input (List.mem_cons_self ..) unfolding roots h
    have hrest := ih (fun input hmem => hf input (List.mem_cons_of_mem _ hmem)) hfirst
    unfold Private at *
    refine List.Perm.trans ?_ hrest
    apply List.Perm.append_left
    exact List.perm_middle.symm

theorem Private.copyWithin {source : Rack} (hsource : source.WellFormed) {depth id : Nat}
    (hdepth : id < depth) (hid : id < source.nodes.size) {unfolding : Unfolding} {roots : List Nat}
    (h : unfolding.Private roots) :
    (copyWithin source depth id unfolding).2.Private
      ((copyWithin source depth id unfolding).1 :: roots) := by
  induction depth generalizing id unfolding roots with
  | zero => omega
  | succ depth ih =>
    have hnode : source.nodes[id]? = some source.nodes[id] := Array.getElem?_eq_getElem hid
    rw [copyWithin_of_some hnode]
    apply Private.add
    rw [Device.inputs_thread, Device.snd_thread]
    apply Private.thread_go _ h
    intro input hmem unfolding roots hprivate
    have hlt := hsource.inputs_lt hnode input hmem
    exact ih (by omega) (by omega) hprivate

theorem Private.copyEntries {source : Rack} (hsource : source.WellFormed)
    {entries : List (String × Nat)} (hentries : ∀ entry ∈ entries, entry.2 < source.nodes.size)
    {unfolding : Unfolding} {roots : List Nat} (h : unfolding.Private roots) :
    (copyEntries source entries unfolding).2.Private
      ((copyEntries source entries unfolding).1.map (·.2) ++ roots) := by
  induction entries generalizing unfolding roots with
  | nil => exact h
  | cons entry rest ih =>
    have hid := hentries entry (List.mem_cons_self ..)
    have hfirst := Private.copyWithin hsource (Nat.lt_succ_self entry.2) hid h
    have hrest := ih (fun entry hmem => hentries entry (List.mem_cons_of_mem _ hmem)) hfirst
    unfold Private at *
    refine List.Perm.trans ?_ hrest
    apply List.Perm.append_left
    exact List.perm_middle.symm

def origin? (unfolding : Unfolding) (copy : Nat) : Option Nat :=
  unfolding.origins[copy]?

structure Faithful (source : Rack) (unfolding : Unfolding) : Prop where
  reachable : unfolding.rack.Reachable
  size_origins : unfolding.origins.size = unfolding.rack.nodes.size
  copies : ∀ {copy : Nat} {node : Node}, unfolding.rack.nodes[copy]? = some node →
    ∃ id original, unfolding.origin? copy = some id ∧ source.nodes[id]? = some original ∧
      node.device.map unfolding.origin? = original.device.map some ∧
      node.range = original.range ∧ node.last = none ∧ node.recorder = none

namespace Faithful

variable {source : Rack} {unfolding : Unfolding}

theorem empty (source : Rack) (files : Files) :
    Faithful source { rack := { files := files } } := by
  refine ⟨Rack.Reachable.empty files, rfl, ?_⟩
  intro copy node hnode
  simp at hnode

theorem exists_copy (h : unfolding.Faithful source) {copy id : Nat}
    (horigin : unfolding.origin? copy = some id) :
    ∃ node original, unfolding.rack.nodes[copy]? = some node ∧ source.nodes[id]? = some original ∧
      node.device.map unfolding.origin? = original.device.map some ∧
      node.range = original.range := by
  obtain ⟨hlt, -⟩ := Array.getElem?_eq_some_iff.1 horigin
  rw [h.size_origins] at hlt
  have hnode : unfolding.rack.nodes[copy]? = some unfolding.rack.nodes[copy] :=
    Array.getElem?_eq_getElem hlt
  obtain ⟨from', original, hfrom, horiginal, hdevice, hrange, -⟩ := h.copies hnode
  rw [horigin] at hfrom
  cases hfrom
  exact ⟨_, original, hnode, horiginal, hdevice, hrange⟩

theorem rangeOf_eq (h : unfolding.Faithful source) {copy id : Nat}
    (horigin : unfolding.origin? copy = some id) :
    unfolding.rack.rangeOf copy = source.rangeOf id := by
  obtain ⟨node, original, hnode, horiginal, -, hrange⟩ := h.exists_copy horigin
  simp only [Rack.rangeOf, hnode, horiginal, hrange]

theorem exists_origin {device : Device Nat} {original : Device Nat}
    (hdevice : device.map unfolding.origin? = original.map some) {input : Nat}
    (hmem : input ∈ device.inputs) : ∃ id, unfolding.origin? input = some id := by
  have hinputs := congrArg Device.inputs hdevice
  rw [Device.inputs_map, Device.inputs_map] at hinputs
  have hlabel := List.mem_map_of_mem (f := unfolding.origin?) hmem
  rw [hinputs] at hlabel
  obtain ⟨id, -, hid⟩ := List.mem_map.1 hlabel
  exact ⟨id, hid.symm⟩

theorem lt_size (h : unfolding.Faithful source) {copy id : Nat}
    (horigin : unfolding.origin? copy = some id) : copy < unfolding.rack.nodes.size := by
  obtain ⟨hlt, -⟩ := Array.getElem?_eq_some_iff.1 horigin
  rw [← h.size_origins]
  exact hlt

theorem origin?_add (h : unfolding.Faithful source) (id : Nat) (device : Device Nat) :
    (unfolding.add id device).2.origin? (unfolding.add id device).1 = some id ∧
      ∀ other from', unfolding.origin? other = some from' →
        (unfolding.add id device).2.origin? other = some from' := by
  constructor
  · simp [origin?, Unfolding.add, Rack.add, ← h.size_origins]
  · intro other from' hother
    obtain ⟨hlt, -⟩ := Array.getElem?_eq_some_iff.1 hother
    simp only [origin?, Unfolding.add] at *
    rw [Array.getElem?_push, if_neg (Nat.ne_of_lt hlt), hother]

theorem range_eq (h : unfolding.Faithful source) {device original : Device Nat}
    (hdevice : device.map unfolding.origin? = original.map some) :
    device.map unfolding.rack.rangeOf = original.map source.rangeOf := by
  -- Both ranges are read off the labels.
  let ranges (label : Option Nat) : Range := label.elim (Range.point 0) source.rangeOf
  have hcopy : device.map unfolding.rack.rangeOf = (device.map unfolding.origin?).map ranges := by
    rw [Device.map_map]
    apply Device.map_congr
    intro input hmem
    obtain ⟨id, hid⟩ := exists_origin hdevice hmem
    simp only [Function.comp_apply, hid, h.rangeOf_eq hid]
    rfl
  rw [hcopy, hdevice, Device.map_map]
  rfl

theorem add (h : unfolding.Faithful source) (hsource : source.WellFormed) {id : Nat}
    {original : Node} (horiginal : source.nodes[id]? = some original) {device : Device Nat}
    (hdevice : device.map unfolding.origin? = original.device.map some) :
    (unfolding.add id device).2.Faithful source := by
  have hlabels := (h.origin?_add id device).2
  have hkeep : ∀ {device' original' : Device Nat},
      device'.map unfolding.origin? = original'.map some →
      device'.map (unfolding.add id device).2.origin? = original'.map some := by
    intro device' original' hold
    rw [← hold]
    apply Device.map_congr
    intro input hmem
    obtain ⟨from', hfrom⟩ := exists_origin hold hmem
    rw [hfrom, hlabels _ _ hfrom]
  refine ⟨?_, ?_, ?_⟩
  · apply Rack.Reachable.add h.reachable
    intro input hmem
    obtain ⟨from', hfrom⟩ := exists_origin hdevice hmem
    exact h.lt_size hfrom
  · simp [Unfolding.add, h.size_origins]
  · intro copy node hnode
    obtain ⟨-, hold⟩ | ⟨rfl, rfl⟩ := Rack.nodes_add_cases hnode
    · obtain ⟨from', twin, hfrom, htwin, hwiring, hrest⟩ := h.copies hold
      exact ⟨from', twin, hlabels _ _ hfrom, htwin, hkeep hwiring, hrest⟩
    · have hrange : (unfolding.rack.fresh device).range = original.range := by
        rw [hsource.range_eq horiginal, ← h.range_eq hdevice]
        rfl
      exact ⟨id, original, (h.origin?_add id device).1, horiginal, hkeep hdevice, hrange, rfl, rfl⟩

theorem copyWithin (hsource : source.WellFormed) {depth id : Nat} (hdepth : id < depth)
    (hid : id < source.nodes.size) :
    Device.Labels (Faithful source) Unfolding.origin? (copyWithin source depth) id := by
  induction depth generalizing id with
  | zero => omega
  | succ depth ih =>
    intro unfolding h
    have hnode : source.nodes[id]? = some source.nodes[id] := Array.getElem?_eq_getElem hid
    rw [copyWithin_of_some hnode]
    have hinputs : ∀ input ∈ source.nodes[id].device.inputs,
        Device.Labels (Faithful source) Unfolding.origin? (Unfolding.copyWithin source depth)
          input := by
      intro input hmem
      have hlt := hsource.inputs_lt hnode input hmem
      exact ih (by omega) (by omega)
    obtain ⟨hthread, hdevice, hlabels⟩ := Device.thread_label hinputs h
    obtain ⟨hself, hrest⟩ := hthread.origin?_add id
      (source.nodes[id].device.thread (Unfolding.copyWithin source depth) unfolding).1
    refine ⟨hthread.add hsource hnode hdevice, hself, ?_⟩
    intro other from' hother
    exact hrest other from' (hlabels other from' hother)

theorem copy (h : unfolding.Faithful source) (hsource : source.WellFormed) (id : Nat) :
    (unfolding.copy source id).2.Faithful source ∧
      (id < source.nodes.size →
        (unfolding.copy source id).2.origin? (unfolding.copy source id).1 = some id) ∧
      ∀ other from', unfolding.origin? other = some from' →
        (unfolding.copy source id).2.origin? other = some from' := by
  by_cases hid : id < source.nodes.size
  · obtain ⟨hnext, hself, hold⟩ := copyWithin hsource (Nat.lt_succ_self id) hid unfolding h
    exact ⟨hnext, fun _ => hself, hold⟩
  · have hnone : source.nodes[id]? = none := by
      rw [Array.getElem?_eq_none_iff]
      omega
    simp only [Unfolding.copy, Unfolding.copyWithin, hnone]
    exact ⟨h, fun hlt => absurd hlt hid, fun _ _ hother => hother⟩

theorem copyEntries (h : unfolding.Faithful source) (hsource : source.WellFormed)
    (entries : List (String × Nat)) :
    (copyEntries source entries unfolding).2.Faithful source ∧
      (∀ name id, entries.lookup name = some id → id < source.nodes.size →
        ∃ copy, (copyEntries source entries unfolding).1.lookup name = some copy ∧
          (copyEntries source entries unfolding).2.origin? copy = some id) ∧
      ∀ other from', unfolding.origin? other = some from' →
        (copyEntries source entries unfolding).2.origin? other = some from' := by
  induction entries generalizing unfolding with
  | nil =>
    refine ⟨h, ?_, fun _ _ hother => hother⟩
    intro name id hlookup
    cases hlookup
  | cons entry rest ih =>
    obtain ⟨first, target⟩ := entry
    obtain ⟨hnext, hself, hold⟩ := h.copy hsource target
    obtain ⟨hlast, hrest, hnew⟩ := ih hnext
    refine ⟨hlast, ?_, fun other from' hother => hnew other from' (hold other from' hother)⟩
    intro name id hlookup hid
    simp only [Unfolding.copyEntries, List.lookup_cons] at *
    by_cases hname : name == first
    · simp only [hname] at *
      cases hlookup
      exact ⟨_, rfl, hnew _ _ (hself hid)⟩
    · simp only [hname] at *
      exact hrest name id hlookup hid

theorem mirrors (h : unfolding.Faithful source) (hsource : source.WellFormed)
    (hunplayed : source.Unplayed) {root id : Nat} (hroot : unfolding.origin? root = some id) :
    Rack.Mirrors (fun copy => (unfolding.origin? copy).getD 0) root unfolding.rack source := by
  have hwiring : ∀ {copy : Nat} {node : Node}, unfolding.rack.nodes[copy]? = some node →
      ∃ twin, source.nodes[(unfolding.origin? copy).getD 0]? = some twin ∧
        node.device.map (fun copy => (unfolding.origin? copy).getD 0) = twin.device ∧
        node.range = twin.range ∧ node.last = none ∧ node.recorder = none := by
    intro copy node hnode
    obtain ⟨from', twin, hfrom, htwin, hdevice, hrest⟩ := h.copies hnode
    refine ⟨twin, by rw [hfrom]; exact htwin, ?_, hrest⟩
    have hlabels := congrArg (Device.map fun label => label.getD 0) hdevice
    rw [Device.map_map, Device.map_map] at hlabels
    exact hlabels.trans twin.device.map_id
  refine ⟨?_, ?_⟩
  · intro copy node hnode
    obtain ⟨twin, htwin, hdevice, hrange, -⟩ := hwiring hnode
    exact ⟨twin, htwin, hdevice, hrange⟩
  · intro copy hreaches
    have hle := h.reachable.wellFormed.le_of_reaches hreaches
    have hlt := h.lt_size hroot
    have hnode : unfolding.rack.nodes[copy]? = some unfolding.rack.nodes[copy] :=
      Array.getElem?_eq_getElem (by omega)
    obtain ⟨twin, htwin, hdevice, hrange, hlast, hrecorder⟩ := hwiring hnode
    refine ⟨_, twin, hnode, htwin, ?_, hrecorder⟩
    have hlast' := (hunplayed _ _ htwin).1
    -- Two nodes that were never played differ in nothing but their wiring.
    obtain ⟨hphase, hbuffer, -⟩ := (h.reachable.wellFormed.sound hnode).unplayed hlast
    obtain ⟨hphase', hbuffer', -⟩ := (hsource.sound htwin).unplayed hlast'
    refine ⟨hdevice, hrange, ?_, by rw [hphase, hphase'], by rw [hlast, hlast']⟩
    rw [hbuffer, hbuffer', ← hdevice, Device.channels_map, Device.initialSample_map]

end Faithful
end Unfolding

theorem Patch.references_unfold {patch : Patch} (hrack : patch.rack.Reachable)
    (hnames : ∀ entry ∈ patch.table.entries, entry.2 < patch.rack.nodes.size) :
    (patch.unfold.rack.nodes.toList.flatMap (·.device.inputs) ++ patch.unfold.table.nodes).Perm
      (List.range patch.unfold.rack.nodes.size) := by
  have hempty : Unfolding.Private { rack := { files := patch.rack.files } } [] :=
    List.Perm.refl _
  have hprivate := Unfolding.Private.copyEntries hrack.wellFormed hnames hempty
  simpa [Unfolding.Private, Unfolding.references, Patch.unfold, Table.nodes] using hprivate

theorem Patch.get?_unfold {patch : Patch} (hrack : patch.rack.Reachable)
    (hunplayed : patch.rack.Unplayed) {name : String} {id : Nat}
    (hname : patch.table.get? name = some id) (hid : id < patch.rack.nodes.size) :
    patch.unfold.rack.Reachable ∧
      ∃ (copy : Nat) (origin : Nat → Nat),
        patch.unfold.table.get? name = some copy ∧ origin copy = id ∧
          Rack.Mirrors origin copy patch.unfold.rack patch.rack := by
  have hempty := Unfolding.Faithful.empty patch.rack patch.rack.files
  obtain ⟨hfaithful, hlookup, -⟩ := hempty.copyEntries hrack.wellFormed patch.table.entries
  rw [Table.get?_eq_lookup] at hname
  obtain ⟨copy, hcopy, horigin⟩ := hlookup name id hname hid
  have hmirrors := hfaithful.mirrors hrack.wellFormed hunplayed horigin
  exact ⟨hfaithful.reachable, copy, _, (Table.get?_eq_lookup _ name).trans hcopy,
    by rw [horigin]; rfl, hmirrors⟩

end PatchSynth
