/-
# Scripts

A script is a file with the extension `cs`, in either case. The scripts at a path
are the file it leads to, if that is a script, or every script at any depth below
the folder it leads to, in the order of their locations: component by component,
each by code points.

Taking attributes out of a file works on its decoded text and writes it only if
something was taken out, so that a file without the attributes keeps its bytes.
-/

import AttributeLists.Files.FileTree
import AttributeLists.Prune.Basic

namespace AttributeLists

/-- The part of a file name after its last dot. A dot at the start of the name or at
its end begins no extension. -/
def extension (name : String) : List Char :=
  let backwards := name.toList.reverse
  match backwards.dropWhile (· != '.') with
  | _ :: _ :: _ => (backwards.takeWhile (· != '.')).reverse
  | _ => []

/-- Whether a file of this name is a script. -/
def isScriptName (name : String) : Bool :=
  (extension name).map Char.toLower == ['c', 's']

/-- A script as a path leads to it. -/
structure Script where
  /-- The path that the script was found under. -/
  path : Path
  /-- Where the script stands in the tree. -/
  location : Location
  deriving DecidableEq

namespace Script

/-- The locations of the scripts in a folder, in order. -/
def locationsIn (f : Folder) : List Location :=
  ((f.files.map (·.1)).filter fun location => isScriptName (location.getLastD "")).mergeSort
    fun a b => !b.precedes a

/-- The scripts that a path leads to. -/
def allAt (tree : FileTree) (p : Path) : List Script :=
  match tree.locate p with
  | .error _ => []
  | .ok location =>
      match tree.node? location with
      | some (.file _) =>
          if isScriptName (location.getLastD "") then [⟨p, location⟩] else []
      | some (.folder inner) =>
          (locationsIn inner).map fun below => ⟨p.append below, location ++ below⟩
      | none => []

end Script

/-- How attributes are taken out of files. -/
structure PruneJob where
  /-- The attributes, in the order in which they are taken out. -/
  names : List AttributeName
  /-- Blank lines that this leaves behind are collapsed. -/
  collapse : Bool
  /-- Nothing is written. -/
  dryRun : Bool

namespace PruneJob

/-- The bytes of a file after the attributes were taken out, and how many entries
that were. -/
def onBytes (job : PruneJob) (bytes : Bytes) : Bytes × Nat :=
  let pruned := (Utf8.decode bytes).pruneAll job.names job.collapse
  (if pruned.removed = 0 then bytes else Utf8.encode pruned.text, pruned.removed)

/-- Take the attributes out of the file at a location. -/
def onFile (job : PruneJob) (location : Location) (tree : FileTree) : FileTree × Nat :=
  match tree.node? location with
  | some (.file bytes) =>
      let (written, removed) := job.onBytes bytes
      (if removed = 0 || job.dryRun then tree else tree.write location written, removed)
  | _ => (tree, 0)

end PruneJob

/-- Why attributes cannot be taken out of the file at a path. -/
inductive PruneError
  /-- The path leads to nothing. -/
  | access (cause : AccessError)
  /-- The path leads to a folder. -/
  | notAFile
  /-- One of the attributes has no valid name. -/
  | name (cause : InvalidName)

/-- Take attributes out of the file that a path leads to. Nothing is written unless
all their names are valid. -/
def pruneFile (p : Path) (attributes : List Text) (collapse dryRun : Bool) (tree : FileTree) :
    Except PruneError (FileTree × Nat) := do
  let location ← (tree.locate p).mapError .access
  match tree.node? location with
  | some (.file _) =>
      let names ← (attributes.mapM AttributeName.ofText).mapError .name
      return PruneJob.onFile ⟨names, collapse, dryRun⟩ location tree
  | _ => throw .notAFile

end AttributeLists
