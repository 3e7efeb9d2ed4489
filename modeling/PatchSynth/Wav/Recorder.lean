import PatchSynth.Wav.Writer

/-!
This module contains the recorder that appends the blocks of a signal to a WAV file. The size fields
are brought up to date after every block, so that the file is complete between two blocks.
-/

namespace PatchSynth

open Wav (Library)

structure Recorder (Writer : Type := Wav.Writer) where
  path : String
  scaler : Float32
  written : Nat := 0
  writer : Writer
  deriving Inhabited

namespace Recorder

abbrev file (recorder : Recorder) : Way :=
  recorder.writer.file

variable {Writer : Type} [Library Writer]

def create (files : Files) (path : String) (channels : Nat) (scaler : Float32) :
    Except FileError (Recorder Writer × Files) := do
  let (writer, files) ← Library.create files path channels
  return ({ path, scaler, writer }, files)

/--
Append a block and update the sizes. A block that would outgrow the size fields is not written at
all.
-/
def writeBlock (recorder : Recorder Writer) (block : Block) (files : Files) :
    Except FileError Unit × Recorder Writer × Files :=
  let written := recorder.written + block.size
  if Wav.maxSamples < written then
    (.error (.sizeLimit recorder.path), recorder, files)
  else
    let samples := block.toList.map (Pcm.ofSample recorder.scaler)
    let (writer, files) := Library.append recorder.writer samples files
    let (result, writer, files) := Library.flush writer files
    (result, { recorder with written, writer }, files)

def finish (recorder : Recorder Writer) (files : Files) : Except FileError Unit × Files :=
  Library.finalize recorder.writer files

end Recorder
end PatchSynth
