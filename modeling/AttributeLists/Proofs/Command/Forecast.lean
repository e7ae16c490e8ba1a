/-
# What a dry run foretells

A dry run looks at every script as it is, however often it comes to it. A real run that
comes to a script again finds what its own earlier visits left, so it can count fewer
entries there, or more. Both count the visits themselves and the first look at each script
in the same way; so they process the same number of scripts, and one of them takes nothing
out exactly if the other does. Their numbers of entries agree if no script that loses
something is visited twice.
-/

import Mathlib.Algebra.BigOperators.Group.Finset.Basic
import Mathlib.Algebra.BigOperators.Group.Finset.Piecewise
import Mathlib.Algebra.Order.BigOperators.Group.Finset
import AttributeLists.Proofs.Command.Failure

namespace AttributeLists

open Finset

namespace PruneJob

/-- How many entries the file at a location loses when it is processed once more after it
was rewritten a number of times. -/
def loss (job : PruneJob) (tree : FileTree) (location : Location) (rounds : Nat) : Nat :=
  match tree.node? location with
  | some (.file bytes) => (job.onBytes (job.rewrite^[rounds] bytes)).2
  | _ => 0

variable (job : PruneJob)

/-- Processing a file counts what it loses after all that was done to it. -/
theorem onFile_mapFiles_snd (tree : FileTree) (rounds : Location → Nat) (location : Location) :
    (job.onFile location (tree.mapFiles fun other => job.rewrite^[rounds other])).2 =
      job.loss tree location (rounds location) := by
  rw [onFile, loss, FileTree.node?_mapFiles]
  cases tree.node? location with
  | none => rfl
  | some node =>
      cases node with
      | folder inner => rfl
      | file bytes => simp [Node.mapFiles]

theorem onFile_snd (tree : FileTree) (location : Location) :
    (job.onFile location tree).2 = job.loss tree location 0 := by
  have unchanged : (tree.mapFiles fun _ => job.rewrite^[0]) = tree := FileTree.mapFiles_same tree
  have looked := job.onFile_mapFiles_snd tree (fun _ => 0) location
  rwa [unchanged] at looked

/-- A file that loses nothing at the first look loses nothing later on. -/
theorem loss_of_loss_zero {tree : FileTree} {location : Location}
    (unlost : job.loss tree location 0 = 0) (rounds : Nat) :
    job.loss tree location rounds = 0 := by
  unfold loss at unlost ⊢
  split
  · rename_i bytes stands
    simp only [stands, Function.iterate_zero, id_eq] at unlost
    have kept : job.rewrite bytes = bytes := by
      rw [← onBytes_fst]
      exact if_pos unlost
    rw [Function.iterate_fixed kept, unlost]
  · rfl

end PruneJob

namespace Command

/-- The sum over all visits of what is lost at each of them, where a visit is told by its
location and the number of earlier visits to it. -/
def lostOver (visits : List Location) (losses : Location → Nat → Nat) : Nat :=
  ∑ location ∈ visits.toFinset, ∑ earlier ∈ range (visits.count location), losses location earlier

theorem lostOver_concat (visits : List Location) (last : Location)
    (losses : Location → Nat → Nat) :
    lostOver (visits ++ [last]) losses =
      lostOver visits losses + losses last (visits.count last) := by
  have each (location : Location) :
      ∑ earlier ∈ range ((visits ++ [last]).count location), losses location earlier =
        ∑ earlier ∈ range (visits.count location), losses location earlier +
          if last = location then losses last (visits.count last) else 0 := by
    by_cases same : last = location
    · subst same
      rw [List.count_append, List.count_singleton_self, sum_range_succ, if_pos rfl]
    · simp [List.count_append, same]
  have unvisited : ∑ location ∈ (visits ++ [last]).toFinset,
      ∑ earlier ∈ range (visits.count location), losses location earlier =
        lostOver visits losses := by
    refine (sum_subset ?_ ?_).symm
    · intro location inside
      simp only [List.mem_toFinset, List.mem_append] at inside ⊢
      exact .inl inside
    · intro location _ outside
      rw [List.mem_toFinset] at outside
      rw [List.count_eq_zero_of_not_mem outside, sum_range_zero]
  rw [lostOver, sum_congr rfl fun location _ => each location, sum_add_distrib, unvisited,
    sum_ite_eq, if_pos (by simp)]

/-- If what loses nothing at first loses nothing later, then nothing is lost over all visits
exactly if nothing is lost at any first visit. -/
theorem lostOver_eq_zero_iff {visits : List Location} {losses : Location → Nat → Nat}
    (first : ∀ location, losses location 0 = 0 → ∀ earlier, losses location earlier = 0) :
    lostOver visits losses = 0 ↔ ∀ location ∈ visits, losses location 0 = 0 := by
  simp only [lostOver, sum_eq_zero_iff, List.mem_toFinset, mem_range]
  constructor
  · intro unlost location visited
    exact unlost location visited 0 (List.count_pos_iff.mpr visited)
  · intro unlost location visited earlier _
    exact first location (unlost location visited) earlier

theorem lostOver_congr {visits : List Location} {losses others : Location → Nat → Nat}
    (agree : ∀ location ∈ visits, ∀ earlier < visits.count location,
      losses location earlier = others location earlier) :
    lostOver visits losses = lostOver visits others := by
  refine sum_congr rfl fun location visited => sum_congr rfl fun earlier early => ?_
  exact agree location (List.mem_toFinset.mp visited) earlier (mem_range.mp early)

namespace Tally

variable (job : PruneJob)

/-- Visits take out what each script loses after the earlier visits to it; in a dry run
the earlier visits leave no trace. -/
theorem removed_foldl_visit (visits : List Location) (t : Tally) :
    (visits.foldl (visit job) t).removed =
      t.removed + lostOver visits fun location earlier =>
        job.loss t.tree location (if job.dryRun then 0 else earlier) := by
  induction visits using List.reverseRecOn with
  | nil => rfl
  | append_singleton visits last ih =>
      have looked : (job.onFile last (visits.foldl (visit job) t).tree).2 =
          job.loss t.tree last (if job.dryRun then 0 else visits.count last) := by
        cases dry : job.dryRun with
        | true =>
            rw [tree_foldl_visit_of_dryRun job dry, job.onFile_snd]
            rfl
        | false =>
            rw [tree_foldl_visit job dry, job.onFile_mapFiles_snd]
            rfl
      rw [List.foldl_concat, lostOver_concat, ← Nat.add_assoc, ← ih, ← looked]
      rfl

end Tally

variable {tree : FileTree}

/-- A run over paths that lead somewhere sums up how many scripts it visited and what they
lost. -/
theorem lines_work_of_present (job : PruneJob) (label : String) {targets : List Path}
    (present : ∀ p ∈ targets, tree.lookup p ≠ none) :
    let visited := visits tree targets
    ∃ lines, (∀ line ∈ lines, ¬ IsSummary line) ∧
      (work job label targets tree).lines =
        lines ++ closing label job.dryRun visited.length
          (lostOver visited fun location earlier =>
            job.loss tree location (if job.dryRun then 0 else earlier)) := by
  intro visited
  refine ⟨_, (unsummed_start tree).paths job targets, ?_⟩
  rw [work_eq_of_visits_perm job label present (List.Perm.refl _), Tally.removed_foldl_visit,
    Nat.zero_add]

/-- Which paths exist decides whether a run over them fails, and nothing else does. -/
theorem status_work_eq (job other : PruneJob) (label : String) (targets : List Path)
    (tree : FileTree) :
    (work job label targets tree).status = (work other label targets tree).status := by
  have same : (work job label targets tree).failed = (work other label targets tree).failed := by
    rw [Bool.eq_iff_iff, failed_work_iff, failed_work_iff]
  rw [Outcome.status, Outcome.status, same]

theorem ofArguments_withoutDryRun_eq_ok {arguments : List String} {asked : Options}
    (parsed : Options.ofArguments arguments = .ok asked) :
    Options.ofArguments (withoutDryRun arguments) = .ok { asked with dryRun := false } := by
  rw [Options.ofArguments_withoutDryRun, parsed]
  rfl

/-- Asking for a dry run does not decide whether a run fails. -/
theorem status_run_withoutDryRun (arguments : List String) (tree : FileTree) :
    (run (withoutDryRun arguments) tree).status = (run arguments tree).status := by
  cases parsed : Options.ofArguments arguments with
  | error cause =>
      have unread : Options.ofArguments (withoutDryRun arguments) = .error cause := by
        rw [Options.ofArguments_withoutDryRun, parsed]
        rfl
      rw [run_of_unread parsed, run_of_unread unread]
  | ok asked =>
      have real_parsed := ofArguments_withoutDryRun_eq_ok parsed
      cases accepted : asked.withDefaults.attributes.mapM
          (AttributeName.ofText <| Text.ofString ·) with
      | error cause =>
          rw [run_of_refused parsed accepted, run_of_refused real_parsed accepted]
      | ok names =>
          rw [run_eq_work parsed accepted, run_eq_work real_parsed accepted]
          exact status_work_eq _ _ _ _ _

theorem failed_of_status {outcome : Outcome} (failed : outcome.status = 1) :
    outcome.failed = true := by
  by_contra succeeded
  rw [Outcome.status, if_neg succeeded] at failed
  contradiction

theorem present_of_status_work {job : PruneJob} {label : String} {targets : List Path}
    (succeeded : (work job label targets tree).status = 0) :
    ∀ p ∈ targets, tree.lookup p ≠ none := by
  intro p inside absent
  have failed := (failed_work_iff job label targets).mpr ⟨p, inside, absent⟩
  rw [Outcome.status, if_pos failed] at succeeded
  contradiction

/-- A dry run ends as the run without the options that make it dry. If they sum up, they
name the same number of scripts; of entries, the one counts for each visit what the script
loses at the first, the other what it loses after the earlier visits. So both find nothing
or neither does, and the counts agree if no script that loses something is visited again. -/
theorem dry_run_forecast (arguments : List String) (tree : FileTree) :
    let dry := run arguments tree
    let real := run (withoutDryRun arguments) tree
    dry.status = real.status ∧
    (dry.status = 1 → ∀ line ∈ dry.lines ++ real.lines, ¬ IsSummary line) ∧
    ∀ asked names, Options.ofArguments arguments = .ok asked → asked.dryRun = true →
      asked.withDefaults.attributes.mapM (AttributeName.ofText <| Text.ofString ·) = .ok names →
      dry.status = 0 →
      let label := ", ".intercalate asked.withDefaults.attributes
      let visited := visits tree asked.withDefaults.paths
      let loss := PruneJob.loss ⟨names, asked.collapse, true⟩ tree
      let foreseen := lostOver visited fun location _ => loss location 0
      let taken := lostOver visited loss
      (∃ lines, (∀ line ∈ lines, ¬ IsSummary line) ∧
        dry.lines = lines ++ closing label true visited.length foreseen) ∧
      (∃ lines, (∀ line ∈ lines, ¬ IsSummary line) ∧
        real.lines = lines ++ closing label false visited.length taken) ∧
      (foreseen = 0 ↔ taken = 0) ∧
      ((∀ location ∈ visited, 1 < visited.count location → loss location 0 = 0) →
        foreseen = taken) := by
  intro dry real
  have same_status : real.status = dry.status := status_run_withoutDryRun arguments tree
  refine ⟨same_status.symm, ?_, ?_⟩
  · intro failed line printed
    rcases List.mem_append.mp printed with by_dry | by_real
    · exact not_isSummary_of_failed (failed_of_status failed) line by_dry
    · exact not_isSummary_of_failed (failed_of_status (same_status.trans failed)) line by_real
  · intro asked names parsed asked_dry accepted succeeded label visited loss foreseen taken
    have dry_worked : dry = work ⟨names, asked.collapse, asked.dryRun⟩ label _ tree :=
      run_eq_work parsed accepted tree
    have real_worked : real = work ⟨names, asked.collapse, false⟩ label _ tree :=
      run_eq_work (ofArguments_withoutDryRun_eq_ok parsed) accepted tree
    rw [asked_dry] at dry_worked
    rw [dry_worked] at succeeded
    have present := present_of_status_work succeeded
    have first : ∀ location, loss location 0 = 0 → ∀ earlier, loss location earlier = 0 :=
      fun location unlost earlier => PruneJob.loss_of_loss_zero _ unlost earlier
    refine ⟨?_, ?_, ?_, ?_⟩
    · rw [dry_worked]
      exact lines_work_of_present ⟨names, asked.collapse, true⟩ label present
    · rw [real_worked]
      exact lines_work_of_present ⟨names, asked.collapse, false⟩ label present
    · have foreseen_none : foreseen = 0 ↔ ∀ location ∈ visited, loss location 0 = 0 :=
        lostOver_eq_zero_iff fun _ unlost _ => unlost
      have taken_none : taken = 0 ↔ ∀ location ∈ visited, loss location 0 = 0 :=
        lostOver_eq_zero_iff first
      exact foreseen_none.trans taken_none.symm
    · intro once
      refine lostOver_congr fun location inside earlier early => ?_
      by_cases again : 1 < visited.count location
      · have unlost := once location inside again
        rw [unlost, first location unlost earlier]
      · have only : earlier = 0 := by omega
        rw [only]

/-- A script that keeps its list is visited twice, one that loses entries once. -/
theorem dry_run_forecast_at_overlapping_paths :
    let bytes (s : String) := Utf8.encode (Text.ofString s)
    let tree := FileTree.empty.insert (some (bytes "[A]")) ["a", "x.cs"]
      |>.insert (some (bytes "[T, A, T]")) ["b.cs"]
    let arguments := ["--dry-run", "--attribute=T", "a", "a/x.cs", "b.cs"]
    let asked : Options :=
      ⟨["T"], [⟨.relative, ["a"]⟩, ⟨.relative, ["a", "x.cs"]⟩, ⟨.relative, ["b.cs"]⟩], true, true⟩
    let name : AttributeName := ⟨Text.ofString "T", isAttributeName_singleton rfl⟩
    let visited := visits tree asked.withDefaults.paths
    let loss := PruneJob.loss ⟨[name], asked.collapse, true⟩ tree
    Options.ofArguments arguments = .ok asked ∧ asked.dryRun = true ∧
    asked.withDefaults.attributes.mapM (AttributeName.ofText <| Text.ofString ·) = .ok [name] ∧
    (run arguments tree).status = 0 ∧
    (∀ location ∈ visited, 1 < visited.count location → loss location 0 = 0) ∧
    (lostOver visited fun location _ => loss location 0) = lostOver visited loss ∧
    withoutDryRun arguments = ["--attribute=T", "a", "a/x.cs", "b.cs"] ∧
    (run arguments tree).lines =
      ["  b.cs: 2 attributes", "Processed 3 script(s). Would remove 2 T attributes."] ∧
    (run (withoutDryRun arguments) tree).lines =
      ["Processed 3 script(s). Removed 2 T attributes."] := by
  intro bytes tree arguments asked name visited loss
  have parsed : Options.ofArguments arguments = .ok asked := rfl
  have accepted : asked.withDefaults.attributes.mapM
      (AttributeName.ofText <| Text.ofString ·) = .ok [name] := by
    have spelled : AttributeName.ofText (Text.ofString "T") = .ok name := dif_pos name.valid
    show ["T"].mapM (AttributeName.ofText <| Text.ofString ·) = .ok [name]
    rw [List.mapM_cons, List.mapM_nil, spelled]
    rfl
  have succeeded : (run arguments tree).status = 0 := by decide +kernel
  have once : ∀ location ∈ visited, 1 < visited.count location → loss location 0 = 0 := by
    decide +kernel
  obtain ⟨-, -, -, agree⟩ :=
    (dry_run_forecast arguments tree).2.2 asked [name] parsed rfl accepted succeeded
  exact ⟨parsed, rfl, accepted, succeeded, once, agree once, rfl, by decide +kernel,
    by decide +kernel⟩

/-- A script that is given twice loses its list once, but a dry run counts it twice. -/
theorem dry_run_counts_second_visit :
    let tree := FileTree.empty.insert (some (Utf8.encode (Text.ofString "[T]"))) ["a.cs"]
    let arguments := ["--dry-run", "--attribute=T", "a.cs", "a.cs"]
    (run arguments tree).lines =
      ["  a.cs: 1 attributes", "  a.cs: 1 attributes",
        "Processed 2 script(s). Would remove 2 T attributes."] ∧
    withoutDryRun arguments = ["--attribute=T", "a.cs", "a.cs"] ∧
    (run (withoutDryRun arguments) tree).lines =
      ["Processed 2 script(s). Removed 1 T attributes."] := by
  decide +kernel

end Command

end AttributeLists
