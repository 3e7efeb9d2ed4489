/-!
This module contains paths and the ways that they describe. A path is a text with slashes; a way is
a list of names that are followed one after the other, free of detours.
-/

namespace PatchSynth

/--
The names on the way to an entry of a file system. The empty way leads to the working directory and
`["/"]` to the root. Steps to the directory above stand in front of all names.
-/
abbrev Way := List String

namespace Way

def root : Way := ["/"]

def parent (way : Way) : Way :=
  if way == root then
    root
  else if way.all (· == "..") then
    way ++ [".."]
  else
    way.dropLast

def follow (way : Way) (name : String) : Way :=
  if name == "." then
    way
  else if name == ".." then
    way.parent
  else
    way ++ [name]

def passed (way : Way) : List String → List Way
  | [] => [way]
  | name :: rest => way :: passed (way.follow name) rest

end Way

namespace Path

def start (path : String) : Way :=
  if path.startsWith "/" then Way.root else []

def names (path : String) : List String :=
  (path.splitOn "/").filter (· != "")

def way (path : String) : Way :=
  (names path).foldl Way.follow (start path)

def isSlashed (path : String) : Bool :=
  path.endsWith "/"

def maxNameSize : Nat := 255

def maxSize : Nat := 4095

end Path
end PatchSynth
