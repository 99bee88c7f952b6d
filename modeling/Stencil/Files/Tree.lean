import Stencil.Files.Access
import Stencil.Files.Path

/-!
# A tree of files in memory

Files and directories by their places below the root, together with the directory from which
relative paths start. A directory that leads to a file or to another directory need not be
listed. `FileTree.files` looks paths up step by step: each step but the last has to be a
directory, and a path that ends in a slash has to be one itself.
-/

namespace Stencil

/-- The names that lead from the root to a file or directory. -/
abbrev Place := List String

structure FileTree where
  /-- Where relative paths start. -/
  home : Place
  files : List (Place × ByteArray)
  directories : List Place

namespace FileTree

/-- All places that are directories, apart from those above them. -/
def directoryPlaces (t : FileTree) : List Place :=
  t.home :: t.directories ++ t.files.map fun (place, _) => place.dropLast

def isDirectory (t : FileTree) (place : Place) : Bool :=
  place.isEmpty || t.directoryPlaces.any place.isPrefixOf

/-- The name below `place` that leads to `target`, if one does. -/
def childTowards? (place target : Place) : Option String :=
  if place.isPrefixOf target then target[place.length]? else none

/-- The names in a directory, each once. -/
def names (t : FileTree) (place : Place) : List String :=
  ((t.directoryPlaces ++ t.files.map Prod.fst).filterMap (childTowards? place)).eraseDups

def entry (t : FileTree) (place : Place) : Except FileError FileEntry :=
  if t.isDirectory place then .ok (.directory (t.names place))
  else
    match t.files.lookup place with
    | some content => .ok (.file (.ok content))
    | none => .error .notFound

/-- Follows the steps of a path from a place that exists. -/
def follow (t : FileTree) (place : Place) : List String → Except FileError FileEntry
  | [] => t.entry place
  | step :: rest =>
    if t.isDirectory place then
      if step = "." then t.follow place rest
      else if step = ".." then t.follow place.dropLast rest
      else
        match t.entry (place ++ [step]) with
        | .ok _ => t.follow (place ++ [step]) rest
        | .error e => .error e
    else .error .notADirectory

/-- The steps of a path; a slash at its end asks for a directory. -/
def steps (path : String) : List String :=
  ((path.toList.splitOn '/').map String.ofList).filter (· ≠ "") ++
    if FilePath.endsInSlash path then ["."] else []

def access (t : FileTree) : Files := fun path =>
  if path.isEmpty then .error .notFound
  else t.follow (if FilePath.isAbsolute path then [] else t.home) (steps path)

end FileTree

end Stencil
