/-
# A run of the command

A run reads its command line, checks every attribute name and then works through
its paths in order. A path that leads to nothing ends the run at once; what was
done before it stays done. A folder without scripts is reported and passed over.
If any script was processed, a summary ends the run.

A dry run counts what a run would take out, reports it for each script and leaves
the tree as it is.
-/

import AttributeLists.Command.Options
import AttributeLists.Files.Script

namespace AttributeLists.Command

/-- What a run has done so far. -/
structure Progress where
  /-- The tree as it is now. -/
  tree : FileTree
  /-- The lines that were printed. -/
  lines : List String
  /-- How many scripts were processed; a script counts as often as it was found. -/
  scripts : Nat
  /-- How many entries were taken out, or would be. -/
  removed : Nat

namespace Progress

/-- Process one script. -/
def script (job : PruneJob) (done : Progress) (s : Script) : Progress :=
  let (tree, removed) := job.onFile s.location done.tree
  let report :=
    if removed != 0 && job.dryRun then
      ["  " ++ s.path.toString ++ ": " ++ toString removed ++ " attributes"]
    else []
  ⟨tree, done.lines ++ report, done.scripts + 1, done.removed + removed⟩

/-- Process the scripts at a path that leads somewhere. -/
def path (job : PruneJob) (done : Progress) (p : Path) : Progress :=
  match Script.allAt done.tree p, done.tree.lookup p with
  | [], some (.folder _) =>
      { done with lines := done.lines ++ ["No C# scripts found in " ++ p.toString] }
  | scripts, _ => scripts.foldl (script job) done

/-- Process the paths in order, up to the first one that leads to nothing, which is
returned too. -/
def paths (job : PruneJob) (done : Progress) : List Path → Progress × Option Path
  | [] => (done, none)
  | p :: rest =>
      match done.tree.lookup p with
      | some _ => paths job (path job done p) rest
      | none => (done, some p)

/-- The line that ends a run which processed scripts. -/
def summary (label : String) (dryRun : Bool) (done : Progress) : String :=
  let action := if dryRun then "Would remove" else "Removed"
  "Processed " ++ toString done.scripts ++ " script(s). " ++
    if done.removed = 0 then "No " ++ label ++ " attributes found."
    else action ++ " " ++ toString done.removed ++ " " ++ label ++ " attributes."

end Progress

/-- The result of a run. -/
structure Outcome where
  /-- The tree that the run leaves. -/
  tree : FileTree
  /-- The lines that the run prints. -/
  lines : List String
  /-- The run did not come to its end. -/
  failed : Bool

namespace Outcome

/-- What the run prints, each line with a line break. -/
def output (o : Outcome) : String :=
  "".intercalate (o.lines.map (· ++ "\n"))

/-- The exit status of the run. -/
def status (o : Outcome) : Nat :=
  if o.failed then 1 else 0

end Outcome

/-- Work through the paths of a job and sum up. -/
def work (job : PruneJob) (label : String) (targets : List Path) (tree : FileTree) : Outcome :=
  match Progress.paths job ⟨tree, [], 0, 0⟩ targets with
  | (done, some missing) =>
      ⟨done.tree, done.lines ++ ["Path " ++ missing.toString ++ " not found"], true⟩
  | (done, none) =>
      let summary := if done.scripts = 0 then [] else [done.summary label job.dryRun]
      ⟨done.tree, done.lines ++ summary, false⟩

/-- Run the command on a tree. -/
def run (arguments : List String) (tree : FileTree) : Outcome :=
  match Options.ofArguments arguments with
  | .error e => ⟨tree, [e.message], true⟩
  | .ok asked =>
      let options := asked.withDefaults
      match options.attributes.mapM (AttributeName.ofText <| Text.ofString ·) with
      | .error e => ⟨tree, [e.message], true⟩
      | .ok names =>
          work ⟨names, options.collapse, options.dryRun⟩ (", ".intercalate options.attributes)
            options.paths tree

end AttributeLists.Command
