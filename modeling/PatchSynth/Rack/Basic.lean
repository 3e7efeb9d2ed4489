import PatchSynth.Device.Fill
import PatchSynth.Wav.Recorder

/-!
This module contains the rack: the nodes that were ever built, in the order in which they were
built, and the files that they are recorded to. Adding a node leaves all others where they are, so
that the index of a node names it for ever.
-/

namespace PatchSynth

def maxFrames : Nat := 4000

structure Node where
  device : Device Nat
  range : Range
  /-- Room for the largest block. A shorter one leaves the rest as it was. -/
  buffer : Block
  phase : Float32 := 0
  last : Option Nat := none
  recorder : Option Recorder := none
  fills : Nat := 0

namespace Node

def isStale (node : Node) (timestamp : Nat) : Bool :=
  match node.last with
  | some last => last < timestamp
  | none => true

def block (node : Node) (frames : Nat) : Block :=
  node.buffer.extract 0 (frames * node.device.channels)

def store (node : Node) (timestamp : Nat) (fill : Fill) : Node :=
  { node with
    buffer := fill.samples ++ node.buffer.extract fill.samples.size node.buffer.size
    phase := fill.phase
    last := some timestamp }

def check (node : Node) (frames : Nat) : Except Error Unit :=
  match (node.block frames).find? fun sample => !node.range.contains sample with
  | some value => .error (.invalidOutputRange node.device.typeName node.range value)
  | none => .ok ()

end Node

structure Rack where
  nodes : Array Node := #[]
  files : Files := {}

namespace Rack

def rangeOf (rack : Rack) (id : Nat) : Range :=
  match rack.nodes[id]? with
  | some node => node.range
  | none => Range.point 0

def isStereo (rack : Rack) (id : Nat) : Bool :=
  match rack.nodes[id]? with
  | some node => node.device.isStereo
  | none => false

def typeName (rack : Rack) (id : Nat) : String :=
  match rack.nodes[id]? with
  | some node => node.device.typeName
  | none => ""

def blockOf (rack : Rack) (id : Nat) (frames : Nat) : Block :=
  match rack.nodes[id]? with
  | some node => node.block frames
  | none => #[]

def feed (rack : Rack) (frames : Nat) (id : Nat) : Feed :=
  { range := rack.rangeOf id, block := rack.blockOf id frames }

def isRecording (rack : Rack) (id : Nat) : Bool :=
  match rack.nodes[id]? with
  | some node => node.recorder.isSome
  | none => false

def add (rack : Rack) (device : Device Nat) : Nat × Rack :=
  let node : Node :=
    { device
      range := (device.map rack.rangeOf).range
      buffer := Array.replicate (maxFrames * device.channels) device.initialSample }
  (rack.nodes.size, { rack with nodes := rack.nodes.push node })

def update (rack : Rack) (id : Nat) (f : Node → Node) : Rack :=
  { rack with nodes := rack.nodes.modify id f }

@[simp]
theorem size_nodes_add (rack : Rack) (device : Device Nat) :
    (rack.add device).2.nodes.size = rack.nodes.size + 1 := by
  simp [add]

theorem getElem?_add_of_lt (rack : Rack) (device : Device Nat) {id : Nat}
    (h : id < rack.nodes.size) : (rack.add device).2.nodes[id]? = rack.nodes[id]? := by
  simp [add, Array.getElem?_push, Nat.ne_of_lt h]

@[simp]
theorem files_add (rack : Rack) (device : Device Nat) :
    (rack.add device).2.files = rack.files := rfl

@[simp]
theorem size_nodes_update (rack : Rack) (id : Nat) (f : Node → Node) :
    (rack.update id f).nodes.size = rack.nodes.size := by
  simp [update]

theorem getElem?_update (rack : Rack) (id other : Nat) (f : Node → Node) :
    (rack.update id f).nodes[other]?
      = if id = other then rack.nodes[other]?.map f else rack.nodes[other]? := by
  simp [update, Array.getElem?_modify]

@[simp]
theorem files_update (rack : Rack) (id : Nat) (f : Node → Node) :
    (rack.update id f).files = rack.files := rfl

end Rack
end PatchSynth
