import PatchSynth.Catalog
import PatchSynth.CommandLine.Parser
import PatchSynth.Patch.Parser
import PatchSynth.Player

/-!
This module contains a run of the program on the files that are there: the patch is loaded,
recorders are attached, and the blocks that are asked for are rendered.
-/

namespace PatchSynth

structure Outcome where
  exitCode : Nat
  chain : List String := []
  deriving DecidableEq

namespace Program

def record (scaler : Float32) :
    List (String × String) → Patch → Except (List String) Unit × Patch
  | [], patch => (.ok (), patch)
  | (name, path) :: rest, patch =>
    match patch.record name path scaler with
    | (.error e, patch) => (.error (("failed to record `" ++ name ++ "`") :: e.chain), patch)
    | (.ok (), patch) => record scaler rest patch

/--
Render the blocks that are asked for and close the recordings. There is no device to play live on.
-/
def render (options : Options) (controls : Controls) (patch : Patch) :
    Except (List String) Unit × Patch :=
  match Player.new patch with
  | (.error e, patch) => (.error e.chain, patch)
  | (.ok player, patch) =>
    match options.blocks with
    | none => (.error ["no default output device available"], patch)
    | some blocks =>
      match player.runOffline controls blocks options.blockSize patch with
      | (.error e, _, patch) => (.error e.chain, patch)
      | (.ok (), _, patch) =>
        let (result, patch) := patch.stopAll
        (result.mapError (·.chain), patch)

/--
Load the patch, record and render. The result is the patch as it was left, be it by a failure.
-/
def play (options : Options) (files : Files) : Except (List String) Unit × Patch :=
  let controls := options.axis.foldl (fun controls (axis, value) => controls.set axis value) {}
  match Patch.load { rack := { files } } Registry.standard options.patch with
  | (.error e, patch) => (.error (("failed to load patch " ++ options.patch) :: e.chain), patch)
  | (.ok (), patch) =>
    match record options.scaler options.record patch with
    | (.error chain, patch) => (.error chain, patch)
    | (.ok (), patch) => render options controls patch

def run (arguments : List String) (files : Files) : Outcome × Files :=
  match Options.parse arguments with
  | .error .displayHelp | .error .displayVersion => ({ exitCode := 0 }, files)
  | .error _ => ({ exitCode := 2 }, files)
  | .ok options =>
    let (result, patch) := play options files
    match result with
    | .ok () => ({ exitCode := 0 }, patch.close)
    | .error chain => ({ exitCode := 1, chain }, patch.close)

end Program
end PatchSynth
