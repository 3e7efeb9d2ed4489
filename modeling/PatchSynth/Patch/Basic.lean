import PatchSynth.Patch.Event
import PatchSynth.Rack.Pull
import PatchSynth.Rack.Release
import PatchSynth.Table

/-!
This module contains a patch: a rack of nodes, the table of their names, and the log of what was
done with them. A node that loses its name is dropped; what becomes of its recording is settled
later, because others may still hold it.
-/

namespace PatchSynth

structure Patch where
  rack : Rack := {}
  table : Table := .empty
  log : Array Event := #[]
  /-- The nodes that were dropped and not settled yet, the first one first. -/
  dropped : Array Nat := #[]

namespace Patch

def note (patch : Patch) (event : Event) : Patch :=
  { patch with log := patch.log.push event }

def build (patch : Patch) (device : Device Nat) : Nat × Patch :=
  let (id, rack) := patch.rack.add device
  (id, { patch with rack })

def drop (patch : Patch) (id : Nat) : Patch :=
  { patch with dropped := patch.dropped.push id }

def insert (patch : Patch) (name : String) (id : Nat) : Patch :=
  let (old, table) := patch.table.insert name id
  let patch :=
    match old with
    | some old => (patch.note (.redefined name)).drop old
    | none => patch
  { patch with table }

def insertAnonymous (patch : Patch) (id : Nat) : Patch :=
  { patch with table := patch.table.insertAnonymous id }

def recordNode (patch : Patch) (id : Nat) (path : String) (scaler : Float32) :
    Except Error Unit × Patch :=
  let typeName := patch.rack.typeName id
  if patch.rack.isRecording id then
    (.ok (), patch.note (.alreadyRecording typeName path))
  else
    match patch.rack.record id path scaler with
    | (.error e, rack) => (.error e, { patch with rack })
    | (.ok (), rack) =>
      let channels := if rack.isStereo id then 2 else 1
      (.ok (), { patch with rack }.note (.recordingAttached typeName path channels))

def record (patch : Patch) (name path : String) (scaler : Float32) : Except Error Unit × Patch :=
  match patch.table.get? name with
  | some id => patch.recordNode id path scaler
  | none => (.error (.unknownInstance name), patch)

def stopAll (patch : Patch) : Except Error Unit × Patch :=
  let ids := patch.table.entries.map (·.2)
  let (result, rack) := Rack.forAll (fun id rack => rack.stop id) ids patch.rack
  (result, { patch with rack })

/--
Close the recordings of the nodes that were dropped, unless something leads to them still: a name, a
node, or one of the references from outside of the patch.
-/
def settle (patch : Patch) (outside : List Nat) : Patch :=
  { patch with
    rack := patch.rack.release (patch.table.nodes ++ outside) patch.dropped.toList
    dropped := #[] }

/--
The files when the patch is given up, its nodes in the order of the table, and with it all
recordings.
-/
def close (patch : Patch) : Files :=
  (patch.rack.release [] (patch.dropped.toList ++ patch.table.nodes)).files

end Patch
end PatchSynth
