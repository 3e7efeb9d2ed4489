import PatchSynth.Wav.Layout

/-!
This module contains what recorders leave to a library: to create a WAV file, to append samples and
to bring the sizes in its header up to date. `Writer` is the library as it is.
-/

namespace PatchSynth
namespace Wav

/--
What recorders ask of a library that writes files with 16-bit PCM.
-/
class Library (Writer : Type) where
  create : Files → String → Nat → Except FileError (Writer × Files)
  append : Writer → List Int16 → Files → Writer × Files
  flush : Writer → Files → Except FileError Unit × Writer × Files
  finalize : Writer → Files → Except FileError Unit × Files

structure Writer where
  file : Way
  channels : Nat
  count : Nat := 0
  position : Nat := headerSize channels
  /-- A data size that is due but has not reached the file. -/
  dueSize : Option Nat := none
  deriving Inhabited

namespace Writer

def create (files : Files) (path : String) (channels : Nat) :
    Except FileError (Writer × Files) := do
  let file ← files.target path
  let files ← files.write path (header channels 0).toArray
  return ({ file, channels }, files)

def dataSize (writer : Writer) : Nat :=
  2 * writer.count

def isWhole (writer : Writer) : Bool :=
  writer.count % writer.channels == 0

def writeDueSize (writer : Writer) (files : Files) : Files :=
  match writer.dueSize with
  | some size =>
    files.overwrite writer.file (dataSizeOffset writer.channels) (bytes32 size)
  | none => files

def writeRiffSize (writer : Writer) (files : Files) : Files :=
  files.overwrite writer.file riffSizeOffset (bytes32 (riffSize writer.channels writer.dataSize))

def writeDataSize (writer : Writer) (files : Files) : Files :=
  files.overwrite writer.file (dataSizeOffset writer.channels) (bytes32 writer.dataSize)

def append (writer : Writer) (samples : List Int16) (files : Files) : Writer × Files :=
  let bytes := samples.flatMap Pcm.bytes
  ({ writer with
      count := writer.count + samples.length
      position := writer.position + bytes.length
      dueSize := none },
   (writer.writeDueSize files).overwrite writer.file writer.position bytes)

/--
Update the sizes. A file that ends inside a frame is refused; its data size stays due and the next
samples go to the start of the samples.
-/
def flush (writer : Writer) (files : Files) : Except FileError Unit × Writer × Files :=
  let files := writer.writeRiffSize files
  if writer.isWhole then
    (.ok (), writer, writer.writeDataSize files)
  else
    let writer := { writer with
      position := headerSize writer.channels
      dueSize := some writer.dataSize }
    (.error .unfinishedFrame, writer, files)

/--
Update the sizes one last time and close the file. A file that ends inside a frame is closed all the
same.
-/
def finalize (writer : Writer) (files : Files) : Except FileError Unit × Files :=
  let files := writer.writeDataSize (writer.writeRiffSize files)
  (if writer.isWhole then .ok () else .error .unfinishedFrame, files)

instance : Library Writer where
  create := create
  append := append
  flush := flush
  finalize := finalize

end Writer
end Wav
end PatchSynth
