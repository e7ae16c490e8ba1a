/-
# What a run does to the tree

A run visits the scripts that its paths lead to, one path after the other. Processing a
script changes bytes and no name, so the scripts of all paths can be collected before
anything is changed, and what the run leaves depends on the visits only.

Two visits can be made in either order: at different locations they do not meet, and at
the same location they are the same. Neither the tree nor the two counts of the summary
change when paths change places, nor when the scripts that a path leads to are given in
place of the path.
-/

import Mathlib.Data.List.Perm.Basic
import Mathlib.Logic.Function.Iterate
import AttributeLists.Command.Run
import AttributeLists.Proofs.Files.Script
import AttributeLists.Proofs.Name.Identifier

namespace AttributeLists.Command

/-- What a run has done so far, apart from what it printed. -/
structure Tally where
  /-- The tree as it is now. -/
  tree : FileTree
  /-- How many scripts were processed. -/
  scripts : Nat
  /-- How many entries were taken out. -/
  removed : Nat

/-- What was done so far, apart from what was printed. -/
def Progress.tally (done : Progress) : Tally :=
  ⟨done.tree, done.scripts, done.removed⟩

namespace Tally

/-- The tally after one more script was processed. -/
def visit (job : PruneJob) (t : Tally) (location : Location) : Tally :=
  let processed := job.onFile location t.tree
  ⟨processed.1, t.scripts + 1, t.removed + processed.2⟩

variable (job : PruneJob)

theorem visit_comm (t : Tally) (one other : Location) :
    (t.visit job one).visit job other = (t.visit job other).visit job one := by
  by_cases same : one = other
  · rw [same]
  · simp only [visit, PruneJob.onFile_fst]
    cases job.dryRun with
    | true => simp only [if_true, Nat.add_right_comm]
    | false =>
        simp only [Bool.false_eq_true, if_false, FileTree.mapFile_comm same,
          PruneJob.onFile_mapFile_snd_of_ne job same,
          PruneJob.onFile_mapFile_snd_of_ne job (Ne.symm same), Nat.add_right_comm]

/-- Visits to the same scripts amount to the same in any order. -/
theorem foldl_visit_perm {visits others : List Location} (same : visits.Perm others)
    (t : Tally) : visits.foldl (visit job) t = others.foldl (visit job) t :=
  same.foldl_eq' (fun one _ other _ t => visit_comm job t one other) t

theorem scripts_foldl_visit (visits : List Location) (t : Tally) :
    (visits.foldl (visit job) t).scripts = t.scripts + visits.length := by
  induction visits generalizing t with
  | nil => rfl
  | cons location visits ih =>
      rw [List.foldl_cons, ih, List.length_cons, visit, Nat.add_right_comm, Nat.add_assoc]

theorem tree_foldl_visit_of_dryRun (dry : job.dryRun = true) (visits : List Location)
    (t : Tally) : (visits.foldl (visit job) t).tree = t.tree := by
  induction visits generalizing t with
  | nil => rfl
  | cons location visits ih =>
      rw [List.foldl_cons, ih, visit]
      exact (job.onFile_fst location t.tree).trans (if_pos dry)

/-- Each file is rewritten as often as it is visited. -/
theorem tree_foldl_visit (wet : job.dryRun = false) (visits : List Location) (t : Tally) :
    (visits.foldl (visit job) t).tree =
      t.tree.mapFiles fun location => job.rewrite^[visits.count location] := by
  induction visits generalizing t with
  | nil => exact (FileTree.mapFiles_same t.tree).symm
  | cons first visits ih =>
      have once : (t.visit job first).tree = t.tree.mapFile first job.rewrite := by
        simp [visit, PruneJob.onFile_fst, wet]
      rw [List.foldl_cons, ih, once, FileTree.mapFile, FileTree.mapFiles_mapFiles]
      congr
      funext location bytes
      by_cases here : location = first
      · simp [here, Function.iterate_succ_apply]
      · simp [here, Ne.symm here]

/-- Visits change the bytes of files and nothing else. -/
theorem exists_mapFiles_foldl_visit (visits : List Location) (t : Tally) :
    ∃ rule, (visits.foldl (visit job) t).tree = t.tree.mapFiles rule := by
  cases dry : job.dryRun with
  | true =>
      refine ⟨fun _ bytes => bytes, ?_⟩
      rw [tree_foldl_visit_of_dryRun job dry, FileTree.mapFiles_same]
  | false => exact ⟨_, tree_foldl_visit job dry visits t⟩

end Tally

/-- The locations that a run over paths visits, one after the other. -/
def visits (tree : FileTree) (targets : List Path) : List Location :=
  (targets.flatMap (Script.allAt tree)).map Script.location

theorem visits_mapFiles (rule : Location → Bytes → Bytes) (tree : FileTree)
    (targets : List Path) : visits (tree.mapFiles rule) targets = visits tree targets := by
  have same : Script.allAt (tree.mapFiles rule) = Script.allAt tree := by
    funext p
    exact Script.allAt_mapFiles rule tree p
  rw [visits, visits, same]

namespace Progress

variable (job : PruneJob)

theorem tally_foldl_script (scripts : List Script) (done : Progress) :
    (scripts.foldl (script job) done).tally =
      (scripts.map Script.location).foldl (Tally.visit job) done.tally := by
  induction scripts generalizing done with
  | nil => rfl
  | cons s scripts ih => exact ih _

theorem tally_path (done : Progress) (p : Path) :
    (path job done p).tally =
      ((Script.allAt done.tree p).map Script.location).foldl (Tally.visit job) done.tally := by
  rw [path, ← tally_foldl_script]
  split
  · rename_i unfound _
    rw [unfound]
    rfl
  · rfl

/-- Working on a path changes the bytes of files and nothing else. -/
theorem exists_mapFiles_path (done : Progress) (p : Path) :
    ∃ rule, (path job done p).tree = done.tree.mapFiles rule := by
  obtain ⟨rule, changed⟩ := Tally.exists_mapFiles_foldl_visit job
    ((Script.allAt done.tree p).map Script.location) done.tally
  exact ⟨rule, (congrArg Tally.tree (tally_path job done p)).trans changed⟩

/-- Working on a path leaves all names as they were, so paths lead where they led before. -/
theorem lookup_path_eq_none_iff (done : Progress) (p q : Path) :
    (path job done p).tree.lookup q = none ↔ done.tree.lookup q = none := by
  obtain ⟨rule, changed⟩ := exists_mapFiles_path job done p
  rw [changed, FileTree.lookup_mapFiles_eq_none]

/-- A run over paths that lead somewhere comes to its end and makes all their visits. -/
theorem paths_of_present (done : Progress) (targets : List Path)
    (present : ∀ p ∈ targets, done.tree.lookup p ≠ none) :
    (paths job done targets).2 = none ∧
      (paths job done targets).1.tally =
        (visits done.tree targets).foldl (Tally.visit job) done.tally := by
  induction targets generalizing done with
  | nil => exact ⟨rfl, rfl⟩
  | cons p targets ih =>
      have here := tally_path job done p
      obtain ⟨rule, tree⟩ := exists_mapFiles_path job done p
      have still_present : ∀ q ∈ targets, (path job done p).tree.lookup q ≠ none := by
        intro q inside
        rw [ne_eq, lookup_path_eq_none_iff]
        exact present q (List.mem_cons_of_mem _ inside)
      obtain ⟨ended, tallied⟩ := ih _ still_present
      rw [here, tree, visits_mapFiles] at tallied
      obtain ⟨node, found⟩ := Option.ne_none_iff_exists'.mp (present p List.mem_cons_self)
      have first : paths job done (p :: targets) = paths job (path job done p) targets := by
        rw [paths, found]
      rw [first]
      refine ⟨ended, tallied.trans ?_⟩
      simp only [visits, List.flatMap_cons, List.map_append, List.foldl_append]

end Progress

/-- The lines that end a run with so many scripts processed and entries taken out. -/
def closing (label : String) (dryRun : Bool) (scripts removed : Nat) : List String :=
  if scripts = 0 then []
  else [Progress.summary label dryRun ⟨.empty, [], scripts, removed⟩]

/-- A run over paths that lead somewhere leaves what its visits leave, in any order, and
ends with their counts. -/
theorem work_eq_of_visits_perm (job : PruneJob) (label : String) {targets : List Path}
    {tree : FileTree} (present : ∀ p ∈ targets, tree.lookup p ≠ none)
    {others : List Location} (same : (visits tree targets).Perm others) :
    let last := others.foldl (Tally.visit job) ⟨tree, 0, 0⟩
    work job label targets tree =
      ⟨last.tree, (Progress.paths job ⟨tree, [], 0, 0⟩ targets).1.lines ++
        closing label job.dryRun others.length last.removed, false⟩ := by
  intro last
  obtain ⟨ended, tallied⟩ := Progress.paths_of_present job ⟨tree, [], 0, 0⟩ targets present
  rw [Tally.foldl_visit_perm job same] at tallied
  have counted : last.scripts = others.length := by
    rw [Tally.scripts_foldl_visit, Nat.zero_add]
  rw [work]
  generalize Progress.paths job ⟨tree, [], 0, 0⟩ targets = reached at ended tallied
  rcases reached with ⟨done, missing⟩
  obtain rfl : missing = none := ended
  have reached_last : done.tally = last := tallied
  rw [← counted, ← reached_last]
  rfl

theorem work_of_visits_perm (job : PruneJob) (label : String) {targets : List Path}
    {tree : FileTree} (present : ∀ p ∈ targets, tree.lookup p ≠ none)
    {others : List Location} (same : (visits tree targets).Perm others) :
    let last := others.foldl (Tally.visit job) ⟨tree, 0, 0⟩
    ∃ lines, work job label targets tree =
      ⟨last.tree, lines ++ closing label job.dryRun others.length last.removed, false⟩ :=
  ⟨_, work_eq_of_visits_perm job label present same⟩

variable {arguments : List String} {asked : Options} {names : List AttributeName}
  {tree : FileTree}

theorem run_eq_work (parsed : Options.ofArguments arguments = .ok asked)
    (accepted : asked.withDefaults.attributes.mapM (AttributeName.ofText <| Text.ofString ·) =
      .ok names) (tree : FileTree) :
    run arguments tree =
      let options := asked.withDefaults
      work ⟨names, options.collapse, options.dryRun⟩ (", ".intercalate options.attributes)
        options.paths tree := by
  simp only [run, parsed, accepted]

/-- Every visit leads to a script, at the location of one of the paths or below it. -/
theorem of_mem_visits {targets : List Path} {location : Location}
    (visited : location ∈ visits tree targets) :
    isScriptName (location.getLastD "") = true ∧
      ∃ p ∈ targets, ∃ start, tree.locate p = .ok start ∧ start <+: location := by
  obtain ⟨s, listed, rfl⟩ := List.mem_map.mp visited
  obtain ⟨p, among, found⟩ := List.mem_flatMap.mp listed
  obtain ⟨-, -, scripted, start, located, above⟩ := Script.of_mem_allAt found
  exact ⟨scripted, p, among, start, located, above⟩

theorem lookup_path_ne_none {p : Path} {s : Script} (found : s ∈ Script.allAt tree p) :
    tree.lookup s.path ≠ none := by
  intro missing
  have alone := Script.allAt_path found
  rw [Script.allAt_of_lookup_eq_none missing] at alone
  contradiction

/-- Lists of paths that come from each other by moving paths and by giving the scripts
that a path leads to in place of the path. -/
inductive Rearranged (tree : FileTree) : List Path → List Path → Prop
  | permuted {targets others : List Path} (same : targets.Perm others) :
      Rearranged tree targets others
  | spread (before later : List Path) (p : Path) :
      Rearranged tree (before ++ p :: later)
        (before ++ (Script.allAt tree p).map Script.path ++ later)
  | trans {targets between others : List Path} (first : Rearranged tree targets between)
      (second : Rearranged tree between others) : Rearranged tree targets others

namespace Rearranged

variable {targets others : List Path}

theorem present (rearranged : Rearranged tree targets others)
    (all : ∀ p ∈ targets, tree.lookup p ≠ none) : ∀ p ∈ others, tree.lookup p ≠ none := by
  induction rearranged with
  | permuted same => exact fun p inside => all p (same.mem_iff.mpr inside)
  | spread before later p =>
      intro q inside
      rcases List.mem_append.mp inside with early | late
      · rcases List.mem_append.mp early with untouched | script
        · exact all q (List.mem_append_left _ untouched)
        · obtain ⟨s, found, rfl⟩ := List.mem_map.mp script
          exact lookup_path_ne_none found
      · exact all q (List.mem_append_right _ (List.mem_cons_of_mem _ late))
  | trans _ _ ih₁ ih₂ => exact ih₂ (ih₁ all)

theorem visits_perm (rearranged : Rearranged tree targets others) :
    (visits tree others).Perm (visits tree targets) := by
  induction rearranged with
  | permuted same => exact (same.symm.flatMap_right _).map _
  | spread before later p =>
      -- The scripts of `p` are visited one by one in the place of `p`.
      simp only [visits, List.flatMap_append, List.flatMap_cons, Script.flatMap_allAt_path,
        List.append_assoc, List.Perm.refl]
  | trans _ _ ih₁ ih₂ => exact ih₂.trans ih₁

end Rearranged

/-- A run rewrites every file as often as its paths lead to it, and a dry run rewrites
none. The tree it leaves and the counts of its summary stay the same if paths change
places or give way to the scripts they lead to. -/
theorem run_effect_of_visits (parsed : Options.ofArguments arguments = .ok asked)
    (accepted : asked.withDefaults.attributes.mapM (AttributeName.ofText <| Text.ofString ·) =
      .ok names)
    (present : ∀ p ∈ asked.withDefaults.paths, tree.lookup p ≠ none) :
    let options := asked.withDefaults
    let job : PruneJob := ⟨names, options.collapse, options.dryRun⟩
    let label := ", ".intercalate options.attributes
    let times := fun location => (visits tree options.paths).count location
    let after := (run arguments tree).tree
    (options.dryRun = true → after = tree) ∧
    (options.dryRun = false →
      after = tree.mapFiles (fun location => job.rewrite^[times location]) ∧
      after.files = tree.files.map fun file => (file.1, job.rewrite^[times file.1] file.2)) ∧
    (∀ location, times location ≠ 0 →
      isScriptName (location.getLastD "") = true ∧
      ∃ p ∈ options.paths, ∃ start, tree.locate p = .ok start ∧ start <+: location) ∧
    ∃ removed,
      let ending := closing label options.dryRun (visits tree options.paths).length removed
      (∃ lines, run arguments tree = ⟨after, lines ++ ending, false⟩) ∧
      ∀ others, Rearranged tree options.paths others →
        ∃ lines, work job label others tree = ⟨after, lines ++ ending, false⟩ := by
  intro options job label times after
  have outcome : run arguments tree = work job label options.paths tree :=
    run_eq_work parsed accepted tree
  let last := (visits tree options.paths).foldl (Tally.visit job) ⟨tree, 0, 0⟩
  obtain ⟨lines, worked⟩ := work_of_visits_perm job label present (List.Perm.refl _)
  have left : after = last.tree := congrArg Outcome.tree (outcome.trans worked)
  refine ⟨fun dry => ?_, fun wet => ?_, fun location visited => ?_, last.removed, ⟨lines, ?_⟩, ?_⟩
  · rw [left]
    exact Tally.tree_foldl_visit_of_dryRun job dry _ _
  · have mapped : after = tree.mapFiles fun location => job.rewrite^[times location] :=
      left.trans (Tally.tree_foldl_visit job wet _ _)
    refine ⟨mapped, ?_⟩
    rw [mapped, FileTree.files_mapFiles]
  · exact of_mem_visits (List.count_pos_iff.mp (Nat.pos_of_ne_zero visited))
  · rw [left]
    exact outcome.trans worked
  · intro others rearranged
    rw [left]
    exact work_of_visits_perm job label (rearranged.present present) rearranged.visits_perm

/-- The visit below `a` leaves the list of `x.cs` as `[field: T]`, which goes away when the
file itself is visited. One path goes up from the current folder and one starts at the root. -/
theorem run_effect_of_visits_at_overlapping_paths :
    let bytes := fun s => Utf8.encode (Text.ofString s)
    let tree := FileTree.empty.insert (some (bytes "[T, field: T]")) ["w", "a", "x.cs"]
      |>.insert (some (bytes "[T]")) ["w", "a", "y.txt"]
      |>.insert (some (bytes "[A, T] b")) ["b.cs"]
      |>.insert (some (bytes "[T]")) ["c.cs"]
      |>.enter ["w"]
    let arguments := ["--attribute=T", "a", "../b.cs", "/w/a/x.cs"]
    let asked : Options :=
      ⟨["T"], [⟨.relative, ["a"]⟩, ⟨.relative, ["..", "b.cs"]⟩, ⟨.single, ["w", "a", "x.cs"]⟩],
        false, true⟩
    let name : AttributeName := ⟨Text.ofString "T", isAttributeName_singleton rfl⟩
    Options.ofArguments arguments = .ok asked ∧
    asked.withDefaults.attributes.mapM (AttributeName.ofText <| Text.ofString ·) = .ok [name] ∧
    (∀ p ∈ asked.withDefaults.paths, tree.lookup p ≠ none) ∧
    (run arguments tree).tree.files =
      [(["w", "a", "x.cs"], []), (["w", "a", "y.txt"], bytes "[T]"), (["b.cs"], bytes "[A] b"),
        (["c.cs"], bytes "[T]")] := by
  intro bytes tree arguments asked name
  have parsed : Options.ofArguments arguments = .ok asked := rfl
  have accepted : asked.withDefaults.attributes.mapM
      (AttributeName.ofText <| Text.ofString ·) = .ok [name] := by
    have spelled : AttributeName.ofText (Text.ofString "T") = .ok name := dif_pos name.valid
    change ["T"].mapM (AttributeName.ofText <| Text.ofString ·) = .ok [name]
    rw [List.mapM_cons, List.mapM_nil, spelled]
    rfl
  have present : ∀ p ∈ asked.withDefaults.paths, tree.lookup p ≠ none := by decide +kernel
  obtain ⟨-, written, -⟩ := run_effect_of_visits parsed accepted present
  exact ⟨parsed, accepted, present, (written rfl).2.trans (by decide +kernel)⟩

end AttributeLists.Command
