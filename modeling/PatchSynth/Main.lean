import PatchSynth.CommandLine.Program

/-!
This module contains the command line: it looks up the files that a run may need, runs the program
on them, writes back what changed, and reports.
-/

namespace PatchSynth
namespace Program

def usage : String :=
  "Usage: patchsynth [OPTIONS] [PATCH]\n\n"
    ++ "      --block-size <FRAMES>  Frames rendered per block, from 1 to 4000\n"
    ++ "      --blocks <COUNT>       Render this many blocks offline\n"
    ++ "      --record <NAME=PATH>   Record an instance to a WAV file (repeatable)\n"
    ++ "      --scaler <SCALE>       Sample scale of the recordings\n"
    ++ "      --axis <AXIS=VALUE>    Hold a control axis at a value (repeatable)\n"
    ++ "  -v, --verbose              More logging (repeatable)\n"
    ++ "  -q, --quiet                Only log errors\n"
    ++ "  -h, --help                 Print this text\n"
    ++ "  -V, --version              Print the version\n"

def pathOf : Way → String
  | [] => "."
  | "/" :: names => "/" ++ "/".intercalate names
  | names => "/".intercalate names

def isDirectory (path : String) : IO Bool := do
  try
    let found ← IO.FS.realPath path
    found.isDir
  catch _ =>
    return false

def lookUpEntry (files : Files) (way : Way) : IO Files := do
  if ← isDirectory (pathOf way) then
    return { files with directories := way :: files.directories }
  try
    let bytes ← IO.FS.readBinFile (pathOf way)
    return { files with contents := Files.store way bytes.data files.contents }
  catch _ =>
    return files

def lookUp (files : Files) (path : String) : IO Files :=
  ((Path.start path).passed (Path.names path)).foldlM lookUpEntry files

def writeBack (before after : Files) : IO Unit :=
  after.contents.forM fun (way, bytes) => do
    if before.contents.lookup way != some bytes then
      IO.FS.writeBinFile (pathOf way) (ByteArray.mk bytes)

def report (chain : List String) : IO Unit := do
  IO.eprintln "Error:"
  chain.zipIdx.forM fun (text, index) => IO.eprintln ("   " ++ toString index ++ ": " ++ text)

def pathsOf (options : Options) : List String :=
  options.patch :: options.record.map (·.2)

def answer : UsageError → IO Unit
  | .displayHelp => IO.print usage
  | .displayVersion => IO.println "patchsynth 0.1.0"
  | error => IO.eprintln ("error: " ++ error.detail?.getD error.label ++ "\n\n" ++ usage)

end Program
end PatchSynth

open PatchSynth in
def main (arguments : List String) : IO UInt32 := do
  let before ←
    match Options.parse arguments with
    | .ok options => (Program.pathsOf options).foldlM Program.lookUp {}
    | .error error => do
      Program.answer error
      pure {}
  let (outcome, after) := Program.run arguments before
  Program.writeBack before after
  unless outcome.chain.isEmpty do
    Program.report outcome.chain
  return UInt32.ofNat outcome.exitCode
