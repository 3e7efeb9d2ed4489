import PatchSynth.Rack.Basic

/-!
This module contains the recording of nodes: how one is started and stopped.
-/

namespace PatchSynth
namespace Rack

def record (rack : Rack) (id : Nat) (path : String) (scaler : Float32) :
    Except Error Unit × Rack :=
  match rack.nodes[id]? with
  | none => (.error (.unwired id), rack)
  | some node =>
    if node.recorder.isSome then
      (.ok (), rack)
    else
      match Recorder.create rack.files path node.device.channels scaler with
      | .error cause => (.error (.record path cause), rack)
      | .ok (recorder, files) =>
        let rack := rack.update id fun node => { node with recorder := some recorder }
        (.ok (), { rack with files })

def stop (rack : Rack) (id : Nat) : Except Error Unit × Rack :=
  match rack.nodes[id]?.bind (·.recorder) with
  | none => (.ok (), rack)
  | some recorder =>
    let (result, files) := recorder.finish rack.files
    let rack := rack.update id fun node => { node with recorder := none }
    (result.mapError .file, { rack with files })

end Rack
end PatchSynth
