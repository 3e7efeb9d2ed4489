import PatchSynth.Rack.Record

/-!
This module contains the end of nodes that nothing refers to any more. References come from outside
and from the nodes that stand. When the last one to a node is given up, the node gives up its own
ones, in the order of its inputs, and then its recording is closed. This order counts if several
recordings share a file: the one that is closed last settles the sizes in its header.
-/

namespace PatchSynth
namespace Rack

/--
How many references there are to each node, if `roots` are the ones from outside. Every node stands
behind its inputs, and so one pass from the last node to the first counts all of them.
-/
def references (rack : Rack) (roots : List Nat) : Array Nat :=
  (List.range rack.nodes.size).foldr go (roots.foldl refer (Array.replicate rack.nodes.size 0))
where
  refer (counts : Array Nat) (id : Nat) : Array Nat :=
    counts.modify id (· + 1)
  go (id : Nat) (counts : Array Nat) : Array Nat :=
    match counts[id]?, rack.nodes[id]? with
    | some (_ + 1), some node => node.device.inputs.foldl refer counts
    | _, _ => counts

/--
Give up one of the counted references to a node, with inputs nested at most so deep.
-/
def releaseWithin : Nat → Array Nat × Rack → Nat → Array Nat × Rack
  | 0, state, _ => state
  | depth + 1, (counts, rack), id =>
    let counts := counts.modify id (· - 1)
    match counts[id]?, rack.nodes[id]? with
    | some 0, some node =>
      let (counts, rack) := node.device.inputs.foldl (releaseWithin depth) (counts, rack)
      (counts, (rack.stop id).2)
    | _, _ => (counts, rack)

def release (rack : Rack) (kept released : List Nat) : Rack :=
  let counts := rack.references (kept ++ released)
  (released.foldl (releaseWithin rack.nodes.size) (counts, rack)).2

@[simp]
theorem release_nil (rack : Rack) (kept : List Nat) : rack.release kept [] = rack := rfl

end Rack
end PatchSynth
