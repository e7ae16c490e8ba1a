/-
# The command line program

The arguments are those of a run. The tree that the run works on is listed on standard
input: the current directory on the first line, as `pwd` prints it, and then one path a
line, from the root or from the current directory; a path that ends in a slash is a folder.
So `git ls-files` or `find` decide what is in reach, and the paths among the arguments
select from it.

The program prints what the run prints, writes the files that the run changed and
exits with the status of the run.
-/

import AttributeLists.Command.Run

namespace AttributeLists.Command

/-- The lines of a stream, without their line breaks. -/
partial def readLines (input : IO.FS.Stream) (done : Array String) : IO (Array String) := do
  let line ← input.getLine
  if line.isEmpty then
    return done
  else
    readLines input (done.push (String.ofList (line.toList.filter (· != '\n'))))

/-- The tree of which only the current folder is known. -/
def currentTree (written : String) : FileTree :=
  let location := (Path.ofString written).components
  FileTree.empty |>.insert none location |>.enter location

/-- Add what a listed path names to a tree. -/
def addListed (tree : FileTree) (listed : String) : IO FileTree := do
  let p := Path.ofString listed
  let location := tree.start p.root ++ p.components
  if listed.toList.getLast? == some '/' then
    return tree.insert none location
  else
    let contents ← IO.FS.readBinFile listed
    return tree.insert (some contents.toList) location

/-- Write the files that a run changed. -/
def writeChanges (before after : FileTree) : IO Unit :=
  after.files.forM fun (location, bytes) => do
    if before.node? location != some (.file bytes) then
      IO.FS.writeBinFile (Path.toString ⟨.single, location⟩) bytes.toByteArray

end AttributeLists.Command

open AttributeLists in
/-- Run the command on the listed files. -/
def main (arguments : List String) : IO UInt32 := do
  let listing ← Command.readLines (← IO.getStdin) #[]
  let start := Command.currentTree (listing.getD 0 "/")
  let tree ← (listing.drop 1).foldlM Command.addListed start
  let outcome := Command.run arguments tree
  IO.print outcome.output
  Command.writeChanges tree outcome.tree
  return UInt32.ofNat outcome.status
