import PatchSynth.Files.Path

/-!
This module contains a store of files under paths: what it takes to create, read and overwrite one,
and why a path may be refused.
-/

namespace PatchSynth

abbrev Bytes := Array UInt8

inductive FileError where
  | notFound
  | isDirectory
  | notDirectory
  | nameTooLong
  | nulInPath
  | invalidText
  | unfinishedFrame
  | sizeLimit (path : String)
  deriving DecidableEq, Inhabited

namespace FileError

def kind : FileError → String
  | .notFound => "NotFound"
  | .isDirectory => "IsADirectory"
  | .notDirectory => "NotADirectory"
  | .nameTooLong => "InvalidFilename"
  | .nulInPath => "InvalidInput"
  | .invalidText | .unfinishedFrame => "InvalidData"
  | .sizeLimit _ => "Other"

def message : FileError → String
  | .notFound => "No such file or directory (os error 2)"
  | .isDirectory => "Is a directory (os error 21)"
  | .notDirectory => "Not a directory (os error 20)"
  | .nameTooLong => "File name too long (os error 36)"
  | .nulInPath => "file name contained an unexpected NUL byte"
  | .invalidText => "stream did not contain valid UTF-8"
  | .unfinishedFrame =>
    "The number of samples written is not a multiple of the number of channels."
  | .sizeLimit path => path ++ " exceeds the WAV size limit"

end FileError

namespace Bytes

def put (bytes : Bytes) (offset : Nat) (byte : UInt8) : Bytes :=
  if h : offset < bytes.size then
    bytes.set offset byte h
  else
    (bytes ++ Array.replicate (offset - bytes.size) 0).push byte

def overwrite (bytes : Bytes) (offset : Nat) : List UInt8 → Bytes
  | [] => bytes
  | byte :: rest => overwrite (bytes.put offset byte) (offset + 1) rest

end Bytes

/--
The files and the directories of a file system by the ways to them. The root, the working directory
and all directories above it always exist.
-/
structure Files where
  directories : List Way := []
  contents : List (Way × Bytes) := []

namespace Files

def isDirectory (files : Files) (way : Way) : Bool :=
  way == Way.root || way.all (· == "..") || files.directories.contains way

def enter (files : Files) (way : Way) (name : String) : Except FileError Way :=
  let next := way.follow name
  if Path.maxNameSize < name.utf8ByteSize then
    .error .nameTooLong
  else if files.isDirectory next then
    .ok next
  else if (files.contents.lookup next).isSome then
    .error .notDirectory
  else
    .error .notFound

def walk (files : Files) (way : Way) : List String → Except FileError Way
  | [] => .ok way
  | [name] => .ok (way.follow name)
  | name :: rest => do files.walk (← files.enter way name) rest

def locate (files : Files) (path : String) : Except FileError Way :=
  if path.contains '\x00' then
    .error .nulInPath
  else if path == "" then
    .error .notFound
  else if Path.maxSize < path.utf8ByteSize then
    .error .nameTooLong
  else
    files.walk (Path.start path) (Path.names path)

theorem follow_of_enter {files : Files} {way next : Way} {name : String}
    (h : files.enter way name = .ok next) : next = way.follow name := by
  unfold enter at h
  grind

theorem foldl_follow_of_walk {files : Files} {way last : Way} {names : List String}
    (h : files.walk way names = .ok last) : last = names.foldl Way.follow way := by
  fun_induction walk files way names with
  | case1 => cases h; rfl
  | case2 => cases h; rfl
  | case3 way name rest _ ih =>
    cases hnext : files.enter way name with
    | error e => simp [hnext, bind, Except.bind] at h
    | ok next =>
      rw [ih next (by simpa [hnext, bind, Except.bind] using h), follow_of_enter hnext]
      rfl

theorem way_of_locate {files : Files} {path : String} {way : Way}
    (h : files.locate path = .ok way) : way = Path.way path := by
  unfold locate at h
  split at h
  · cases h
  · split at h
    · cases h
    · split at h
      · cases h
      · exact foldl_follow_of_walk h

def get? (files : Files) (way : Way) : Except FileError (Option Bytes) :=
  if way.any fun name => Path.maxNameSize < name.utf8ByteSize then
    .error .nameTooLong
  else if files.isDirectory way then
    .error .isDirectory
  else
    .ok (files.contents.lookup way)

def read (files : Files) (path : String) : Except FileError Bytes := do
  let way ← files.locate path
  match ← files.get? way with
  | some bytes => if Path.isSlashed path then .error .notDirectory else .ok bytes
  | none => .error .notFound

def readText (files : Files) (path : String) : Except FileError String := do
  let bytes ← files.read path
  match String.fromUTF8? (ByteArray.mk bytes) with
  | some text => .ok text
  | none => .error .invalidText

def store (way : Way) (bytes : Bytes) : List (Way × Bytes) → List (Way × Bytes)
  | [] => [(way, bytes)]
  | (other, old) :: rest =>
    if other = way then (way, bytes) :: rest else (other, old) :: store way bytes rest

def target (files : Files) (path : String) : Except FileError Way := do
  let way ← files.locate path
  if Path.isSlashed path then
    .error .isDirectory
  else
    let _ ← files.get? way
    return way

def write (files : Files) (path : String) (bytes : Bytes) : Except FileError Files := do
  let way ← files.target path
  return { files with contents := store way bytes files.contents }

def overwrite (files : Files) (way : Way) (offset : Nat) (bytes : List UInt8) : Files :=
  let old := (files.contents.lookup way).getD #[]
  { files with contents := store way (old.overwrite offset bytes) files.contents }

end Files
end PatchSynth
