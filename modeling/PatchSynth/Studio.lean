import PatchSynth.Catalog
import PatchSynth.Device.Probe
import PatchSynth.Patch.Parser
import PatchSynth.Player

/-!
This module contains a studio: the types at hand, the controls, the patch that is being built and
the player that plays it, all of which live on while the patch changes.
-/

namespace PatchSynth

def Node.describe (node : Node) : String :=
  let last :=
    match node.last with
    | some last => "Some(" ++ toString last ++ ")"
    | none => "None"
  "ModuleRef \x7b name: " ++ quote node.device.typeName ++ ", stereo: "
    ++ toString node.device.isStereo ++ ", last_timestamp: " ++ last ++ " \x7d"

structure Studio where
  registry : Registry := Registry.standard
  controls : Controls := {}
  patch : Patch := {}
  player : Option Player := none
  probes : List (String × Nat) := []

namespace Studio

def node? (studio : Studio) (name : String) : Option Node := do
  studio.patch.rack.nodes[← studio.patch.table.get? name]?

/--
Register a type of probes. Parameters whose kind is unknown are left out and their errors returned.
-/
def define (studio : Studio) (probe : Probe) (params : List (String × String)) :
    Descriptor × List Error × Studio :=
  let (descriptor, errors) := params.foldl go (probe.descriptor, [])
  (descriptor, errors,
    { studio with
      registry := studio.registry.register descriptor
      probes := (probe.typeName, studio.patch.rack.nodes.size)
        :: studio.probes.filter (·.1 != probe.typeName) })
where
  go : Descriptor × List Error → String × String → Descriptor × List Error
    | (descriptor, errors), (name, kind) =>
      match descriptor.addParam name kind with
      | .ok descriptor => (descriptor, errors)
      | .error e => (descriptor, errors ++ [e])

def fillsOf? (studio : Studio) (typeName : String) : Option Nat := do
  let first ← studio.probes.lookup typeName
  let nodes := (studio.patch.rack.nodes.extract first).filter fun node =>
    node.device.isCustom && node.device.typeName == typeName
  return nodes.foldl (fun fills node => fills + node.fills) 0

def parse (studio : Studio) (text : String) : Except ParseError Unit × Studio :=
  let (result, patch) := studio.patch.parse studio.registry text
  (result, { studio with patch })

def load (studio : Studio) (path : String) : Except LoadError Unit × Studio :=
  let (result, patch) := studio.patch.load studio.registry path
  (result, { studio with patch })

def output (studio : Studio) (id : Nat) (timestamp frames : Nat) :
    Except Error Block × Studio :=
  let request : Request := { timestamp, frames, controls := studio.controls }
  let (result, rack) := studio.patch.rack.output request id
  (result, { studio with patch := { studio.patch with rack } })

def setAxis (studio : Studio) (axis : Int) (value : Float32) : Studio :=
  { studio with controls := studio.controls.set axis value }

def start (studio : Studio) : Except Error Player × Studio :=
  match Player.new studio.patch with
  | (.error e, patch) => (.error e, { studio with patch })
  | (.ok player, patch) =>
    let patch :=
      match studio.player with
      | some old => patch.drop old.output
      | none => patch
    (.ok player, { studio with patch, player := some player })

/--
Close the recordings of nodes that neither a name nor the player leads to any more.
-/
def settle (studio : Studio) : Studio :=
  { studio with patch := studio.patch.settle (studio.player.map (·.output)).toList }

def takeLog (studio : Studio) : Array Event × Studio :=
  (studio.patch.log, { studio with patch := { studio.patch with log := #[] } })

end Studio
end PatchSynth
