/-!
This module contains what is worth a line in a log while a patch is built and played.
-/

namespace PatchSynth

inductive Event where
  | instantiated (line : Nat) (typeName name : String)
  | redefined (name : String)
  | recordingAttached (typeName path : String) (channels : Nat)
  | alreadyRecording (typeName path : String)
  | patchReady (typeName : String) (instances literals : Nat)
  | rendering (timestamp frames : Nat)
  deriving DecidableEq

namespace Event

def level : Event → String
  | .instantiated .. | .recordingAttached .. => "DEBUG"
  | .redefined .. | .alreadyRecording .. => "WARN"
  | .patchReady .. => "INFO"
  | .rendering .. => "TRACE"

def message : Event → String
  | .instantiated .. => "module instantiated"
  | .redefined .. => "instance redefined, later definition wins"
  | .recordingAttached .. => "recording attached"
  | .alreadyRecording .. => "module is already recording"
  | .patchReady .. => "patch ready"
  | .rendering .. => "rendering block"

def fields : Event → List (String × String)
  | .instantiated line typeName name =>
    [("line", toString line), ("module", typeName), ("instance", name)]
  | .redefined name => [("instance", name)]
  | .recordingAttached typeName path channels =>
    [("module", typeName), ("path", path), ("channels", toString channels)]
  | .alreadyRecording typeName path => [("module", typeName), ("path", path)]
  | .patchReady typeName instances literals =>
    [("module", typeName), ("instances", toString instances), ("literals", toString literals)]
  | .rendering timestamp frames =>
    [("timestamp", toString timestamp), ("frames", toString frames)]

end Event
end PatchSynth
