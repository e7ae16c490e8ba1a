/-
# File trees

A file tree is a well-formed folder, the root, together with the folder in it that is the
current one. A path starts at the root or at the current folder, leads down through folders
and back up where a component is `..`; every component but the last must be a folder, and
so must whatever `..` leads up from. Above the root is the root itself.

There are no links in a tree: every entry of a folder is a file or a folder, and each of
them stands at one location.
-/

import AttributeLists.Files.Folder
import AttributeLists.Files.Path

namespace AttributeLists

/-- The files and folders that a run works on. -/
structure FileTree where
  /-- The root. -/
  top : Folder
  /-- Names are distinct and usable. -/
  wellFormed : top.WellFormed
  /-- Where the current folder stands. -/
  current : Location
  /-- The current folder is a folder of the tree. -/
  current_stands : top.hasFolder current = true

/-- Why a path leads to nothing. -/
inductive AccessError
  /-- A component does not exist. -/
  | missing
  /-- A component that is not the last one is a file. -/
  | throughFile
  deriving DecidableEq

namespace FileTree

/-- The tree without files. -/
def empty : FileTree :=
  ⟨.empty, trivial, [], rfl⟩

/-- Put a file, or a folder if no bytes are given, at a location. Nothing changes if a name
in the location is unusable or the current folder would be lost. -/
def insert (leaf : Option Bytes) (location : Location) (tree : FileTree) : FileTree :=
  if fits : (∀ name ∈ location, isEntryName name = true) ∧
      (tree.top.insert leaf location).hasFolder tree.current = true then
    ⟨tree.top.insert leaf location, tree.wellFormed.insert fits.1 leaf, tree.current, fits.2⟩
  else tree

/-- Make the folder at a location the current one. Nothing changes if none stands there. -/
def enter (location : Location) (tree : FileTree) : FileTree :=
  if stands : tree.top.hasFolder location = true then
    ⟨tree.top, tree.wellFormed, location, stands⟩
  else tree

/-- Give the file at a location new bytes. -/
def write (location : Location) (bytes : Bytes) (tree : FileTree) : FileTree where
  top := tree.top.write location bytes
  wellFormed := tree.wellFormed.write location bytes
  current := tree.current
  current_stands := Folder.hasFolder_write tree.current_stands location bytes

/-- What stands at a location. -/
def node? (tree : FileTree) (location : Location) : Option Node :=
  tree.top.node? location

/-- Where the paths of a root start. -/
def start (tree : FileTree) : PathRoot → Location
  | .relative => tree.current
  | .single | .double => []

/-- The location that components lead to from a folder that stands at `here`. -/
def locateFrom (tree : FileTree) (here : Location) :
    List String → Except AccessError Location
  | [] => .ok here
  | name :: rest =>
      if name = ".." then tree.locateFrom here.dropLast rest
      else
        match tree.node? (here ++ [name]) with
        | some (.folder _) => tree.locateFrom (here ++ [name]) rest
        | some (.file _) => if rest = [] then .ok (here ++ [name]) else .error .throughFile
        | none => .error .missing

/-- The location that a path leads to. -/
def locate (tree : FileTree) (p : Path) : Except AccessError Location :=
  tree.locateFrom (tree.start p.root) p.components

/-- What a path leads to. -/
def lookup (tree : FileTree) (p : Path) : Option Node :=
  match tree.locate p with
  | .ok location => tree.node? location
  | .error _ => none

/-- Every file of the tree, with its location. -/
def files (tree : FileTree) : List (Location × Bytes) :=
  tree.top.files

end FileTree

end AttributeLists
