import PatchSynth.Rack.Basic

/-!
This module contains the evaluation of nodes on demand. A node that is asked for a block newer than
its last one asks its inputs first; otherwise its buffer is handed out as it is. So a node that
several others read is computed once per timestamp.

An input always stands before the node that reads it. A read that breaks this rule is refused with
`Error.unwired`, and so every pull ends.
-/

namespace PatchSynth
namespace Rack

def checkDemands (rack : Rack) (device : Device Nat) : Except Error Unit :=
  device.demands.forM fun (input, accepted) =>
    let declared := rack.rangeOf input
    if declared.within accepted then
      .ok ()
    else
      .error (.invalidInputRange (rack.typeName input) declared device.typeName accepted)

def recordBlock (rack : Rack) (id : Nat) (frames : Nat) : Except Error Unit × Rack :=
  match rack.nodes[id]? with
  | none => (.ok (), rack)
  | some node =>
    match node.recorder with
    | none => (.ok (), rack)
    | some recorder =>
      let (result, recorder, files) := recorder.writeBlock (node.block frames) rack.files
      let rack := rack.update id fun node => { node with recorder := some recorder }
      (result.mapError .file, { rack with files })

/--
Compute the block of a node from the blocks of its inputs, record it and check it, in this order.
This is the build that checks output ranges. The one that does not is not described.
-/
def complete (request : Request) (id : Nat) (node : Node) (rack : Rack) :
    Except Error Unit × Rack :=
  match (node.device.map (rack.feed request.frames)).fill request node.phase with
  | .error e => (.error e, rack)
  | .ok fill =>
    let rack := rack.update id (·.store request.timestamp fill)
    match rack.recordBlock id request.frames with
    | (.error e, rack) => (.error e, rack)
    | (.ok (), rack) => ((node.store request.timestamp fill).check request.frames, rack)

def forAll (act : Nat → Rack → Except Error Unit × Rack) :
    List Nat → Rack → Except Error Unit × Rack
  | [], rack => (.ok (), rack)
  | id :: rest, rack =>
    match act id rack with
    | (.error e, rack) => (.error e, rack)
    | (.ok (), rack) => forAll act rest rack

def evaluate (refresh : Nat → Rack → Except Error Unit × Rack) (request : Request) (id : Nat)
    (node : Node) (rack : Rack) : Except Error Unit × Rack :=
  match rack.checkDemands node.device with
  | .error e => (.error e, rack)
  | .ok () =>
    let rack := rack.update id fun node => { node with fills := node.fills + 1 }
    match forAll refresh node.device.reads rack with
    | (.error e, rack) => (.error e, rack)
    | (.ok (), rack) => complete request id node rack

/--
Bring a node up to date, with inputs nested at most so deep. A node with the index `id` never needs
more than `id + 1`.
-/
def refreshWithin (request : Request) : Nat → Nat → Rack → Except Error Unit × Rack
  | 0, id, rack => (.error (.unwired id), rack)
  | depth + 1, id, rack =>
    match rack.nodes[id]? with
    | none => (.error (.unwired id), rack)
    | some node =>
      if node.isStale request.timestamp then
        let refresh input rack :=
          if input < id then
            refreshWithin request depth input rack
          else
            (.error (.unwired input), rack)
        evaluate refresh request id node rack
      else
        (.ok (), rack)

theorem refreshWithin_of_lt (request : Request) {depth : Nat} {id : Nat} (h : id < depth) :
    refreshWithin request depth id = refreshWithin request (id + 1) id := by
  induction id using Nat.strongRecOn generalizing depth with
  | ind id ih =>
    obtain _ | depth := depth
    · omega
    have inner : ∀ input, input < id →
        refreshWithin request depth input = refreshWithin request id input := by
      intro input hlt
      rw [ih input hlt (by omega : input < depth), ih input hlt hlt]
    have step :
        (fun input rack =>
          if input < id then
            refreshWithin request depth input rack
          else
            ((.error (.unwired input), rack) : Except Error Unit × Rack))
        = fun input rack =>
          if input < id then
            refreshWithin request id input rack
          else
            (.error (.unwired input), rack) := by
      funext input rack
      split
      next hlt => rw [inner input hlt]
      next => rfl
    funext rack
    simp only [refreshWithin]
    rw [step]

def refresh (request : Request) (id : Nat) (rack : Rack) : Except Error Unit × Rack :=
  refreshWithin request (id + 1) id rack

/--
What `refresh` does, without the depth: a stale node is evaluated after the nodes before it that it
reads.
-/
theorem refresh_eq (request : Request) (id : Nat) (rack : Rack) :
    rack.refresh request id =
      match rack.nodes[id]? with
      | none => (.error (.unwired id), rack)
      | some node =>
        if node.isStale request.timestamp then
          let refresh input rack :=
            if input < id then
              refresh request input rack
            else
              (.error (.unwired input), rack)
          evaluate refresh request id node rack
        else
          (.ok (), rack) := by
  have step :
      (fun input rack =>
        if input < id then
          refreshWithin request id input rack
        else
          ((.error (.unwired input), rack) : Except Error Unit × Rack))
      = fun input rack =>
        if input < id then
          refresh request input rack
        else
          (.error (.unwired input), rack) := by
    funext input rack
    split
    next hlt => rw [refreshWithin_of_lt request hlt, refresh]
    next => rfl
  rw [refresh, refreshWithin]
  simp only [step]

def output (request : Request) (id : Nat) (rack : Rack) : Except Error Block × Rack :=
  let request := { request with frames := min request.frames maxFrames }
  match rack.refresh request id with
  | (.error e, rack) => (.error e, rack)
  | (.ok (), rack) => (.ok (rack.blockOf id request.frames), rack)

end Rack
end PatchSynth
