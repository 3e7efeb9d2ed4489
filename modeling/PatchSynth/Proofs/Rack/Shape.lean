import PatchSynth.Proofs.Device
import PatchSynth.Rack.Pull

/-!
This module contains the parts of a rack that playing it never changes: the devices, their wiring
and their declared ranges.
-/

namespace PatchSynth
namespace Rack

def shape (rack : Rack) : Array (Device Nat × Range) :=
  rack.nodes.map fun node => (node.device, node.range)

theorem getElem?_shape (rack : Rack) (id : Nat) :
    rack.shape[id]? = rack.nodes[id]?.map fun node => (node.device, node.range) := by
  simp [shape]

theorem exists_of_getElem?_shape {rack : Rack} {id : Nat} {device : Device Nat} {range : Range}
    (h : rack.shape[id]? = some (device, range)) :
    ∃ node, rack.nodes[id]? = some node ∧ node.device = device ∧ node.range = range := by
  rw [getElem?_shape, Option.map_eq_some_iff] at h
  obtain ⟨node, hnode, heq⟩ := h
  rw [Prod.mk.injEq] at heq
  exact ⟨node, hnode, heq.1, heq.2⟩

theorem shape_ext {rack other : Rack}
    (h : ∀ id : Nat, rack.nodes[id]?.map (fun node => (node.device, node.range))
      = other.nodes[id]?.map fun node => (node.device, node.range)) :
    rack.shape = other.shape := by
  apply Array.ext_getElem?
  intro id
  rw [getElem?_shape, getElem?_shape, h id]

theorem shape_update {rack : Rack} {id : Nat} {f : Node → Node}
    (h : ∀ node, (f node).device = node.device ∧ (f node).range = node.range) :
    (rack.update id f).shape = rack.shape := by
  apply shape_ext
  intro other
  rw [getElem?_update]
  split
  · cases rack.nodes[other]? with
    | none => rfl
    | some node => simp [h node]
  · rfl

theorem nodes_update_cases {rack : Rack} {id other : Nat} {f : Node → Node} {node : Node}
    (h : (rack.update id f).nodes[other]? = some node) :
    ∃ old, rack.nodes[other]? = some old ∧ (node = old ∨ id = other ∧ node = f old) := by
  rw [getElem?_update] at h
  split at h
  next hid =>
    rw [Option.map_eq_some_iff] at h
    obtain ⟨old, hold, rfl⟩ := h
    exact ⟨old, hold, Or.inr ⟨hid, rfl⟩⟩
  next => exact ⟨node, h, Or.inl rfl⟩

theorem size_nodes_of_shape {rack other : Rack} (h : rack.shape = other.shape) :
    rack.nodes.size = other.nodes.size := by
  have := congrArg Array.size h
  simpa [shape] using this

theorem exists_of_shape {rack other : Rack} (h : rack.shape = other.shape) {id : Nat} {node : Node}
    (hnode : rack.nodes[id]? = some node) :
    ∃ twin, other.nodes[id]? = some twin ∧ twin.device = node.device ∧ twin.range = node.range := by
  have hid : rack.shape[id]? = other.shape[id]? := by rw [h]
  rw [getElem?_shape, getElem?_shape, hnode] at hid
  cases htwin : other.nodes[id]? with
  | none => simp [htwin] at hid
  | some twin =>
    rw [htwin] at hid
    simp only [Option.map_some, Option.some.injEq, Prod.mk.injEq] at hid
    exact ⟨twin, rfl, hid.1.symm, hid.2.symm⟩

theorem none_of_shape {rack other : Rack} (h : rack.shape = other.shape) {id : Nat}
    (hnode : rack.nodes[id]? = none) : other.nodes[id]? = none := by
  rw [Array.getElem?_eq_none_iff] at *
  rw [← size_nodes_of_shape h]
  exact hnode

theorem rangeOf_of_shape {rack other : Rack} (h : rack.shape = other.shape) :
    rack.rangeOf = other.rangeOf := by
  funext id
  unfold rangeOf
  cases hnode : rack.nodes[id]? with
  | none => rw [none_of_shape h hnode]
  | some node =>
    obtain ⟨twin, htwin, -, hrange⟩ := exists_of_shape h hnode
    simp [htwin, hrange]

theorem typeName_of_shape {rack other : Rack} (h : rack.shape = other.shape) :
    rack.typeName = other.typeName := by
  funext id
  unfold typeName
  cases hnode : rack.nodes[id]? with
  | none => rw [none_of_shape h hnode]
  | some node =>
    obtain ⟨twin, htwin, hdevice, -⟩ := exists_of_shape h hnode
    simp [htwin, hdevice]

theorem exists_of_isStereo {rack : Rack} {id : Nat} (h : rack.isStereo id = true) :
    ∃ node, rack.nodes[id]? = some node ∧ node.device.isStereo = true := by
  unfold isStereo at h
  split at h
  next node hnode => exact ⟨node, hnode, h⟩
  next => cases h

theorem isStereo_of_shape {rack other : Rack} (h : rack.shape = other.shape) :
    rack.isStereo = other.isStereo := by
  funext id
  unfold isStereo
  cases hnode : rack.nodes[id]? with
  | none => rw [none_of_shape h hnode]
  | some node =>
    obtain ⟨twin, htwin, hdevice, -⟩ := exists_of_shape h hnode
    simp [htwin, hdevice]

theorem checkDemands_of_shape {rack other : Rack} (h : rack.shape = other.shape)
    (device : Device Nat) : rack.checkDemands device = other.checkDemands device := by
  unfold checkDemands
  rw [rangeOf_of_shape h, typeName_of_shape h]

def Reads (rack : Rack) (id input : Nat) : Prop :=
  ∃ node, rack.nodes[id]? = some node ∧ input ∈ node.device.reads

def Reaches (rack : Rack) : Nat → Nat → Prop :=
  Relation.ReflTransGen rack.Reads

theorem Reaches.refl (rack : Rack) (id : Nat) : rack.Reaches id id :=
  Relation.ReflTransGen.refl

theorem Reaches.head {rack : Rack} {id input other : Nat} (h : rack.Reads id input)
    (hrest : rack.Reaches input other) : rack.Reaches id other :=
  Relation.ReflTransGen.head h hrest

theorem Reaches.tail {rack : Rack} {id input other : Nat} (h : rack.Reaches id input)
    (hlast : rack.Reads input other) : rack.Reaches id other :=
  Relation.ReflTransGen.tail h hlast

theorem reads_of_shape {rack other : Rack} (h : rack.shape = other.shape) :
    rack.Reads = other.Reads := by
  have hmp : ∀ {rack other : Rack}, rack.shape = other.shape → ∀ {id input : Nat},
      rack.Reads id input → other.Reads id input := by
    intro rack other h id input hreads
    obtain ⟨node, hnode, hmem⟩ := hreads
    obtain ⟨twin, htwin, hdevice, -⟩ := exists_of_shape h hnode
    exact ⟨twin, htwin, by rwa [hdevice]⟩
  funext id input
  exact propext ⟨hmp h, hmp h.symm⟩

theorem reaches_of_shape {rack other : Rack} (h : rack.shape = other.shape) :
    rack.Reaches = other.Reaches := by
  unfold Reaches
  rw [reads_of_shape h]

end Rack
end PatchSynth
