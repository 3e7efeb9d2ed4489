import PatchSynth.Patch.Basic

/-!
This module contains the player, which asks the instance called `output` for one block after the
other. Its clock counts the blocks and is the timestamp of the next one; a block that fails counts
too.
-/

namespace PatchSynth

structure Player where
  output : Nat
  clock : Nat := 0
  deriving DecidableEq

namespace Player

def outputName : String := "output"

def new (patch : Patch) : Except Error Player × Patch :=
  match patch.table.get? outputName with
  | none => (.error .noOutput, patch)
  | some output =>
    if patch.rack.isStereo output then
      let event := .patchReady (patch.rack.typeName output) patch.table.size
        patch.table.anonymousCount
      (.ok { output }, patch.note event)
    else
      (.error .outputNotStereo, patch)

def render (player : Player) (controls : Controls) (frames : Nat) (patch : Patch) :
    Except Error Block × Player × Patch :=
  let patch := patch.note (.rendering player.clock frames)
  let request : Request := { timestamp := player.clock, frames, controls }
  let (result, rack) := patch.rack.output request player.output
  (result, { player with clock := player.clock + 1 }, { patch with rack })

def framesFor (size : Nat) : Nat :=
  min (size / 2) maxFrames

/--
Play one block into the front of a PCM buffer. A block that fails leaves the buffer as it was.
-/
def renderPcm (player : Player) (controls : Controls) (out : Array Int16) (patch : Patch) :
    Except Error Nat × Array Int16 × Player × Patch :=
  let frames := framesFor out.size
  match player.render controls frames patch with
  | (.error e, player, patch) => (.error e, out, player, patch)
  | (.ok block, player, patch) =>
    let front := Pcm.convertStereo block (out.extract 0 (2 * frames))
    (.ok frames, front ++ out.extract (2 * frames) out.size, player, patch)

def runOffline (player : Player) (controls : Controls) (blocks frames : Nat) (patch : Patch) :
    Except Error Unit × Player × Patch :=
  match blocks with
  | 0 => (.ok (), player, patch)
  | blocks + 1 =>
    match player.render controls frames patch with
    | (.error e, player, patch) => (.error e, player, patch)
    | (.ok _, player, patch) => player.runOffline controls blocks frames patch

end Player
end PatchSynth
