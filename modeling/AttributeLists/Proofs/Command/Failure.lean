/-
# Runs that fail

A run fails for one of three reasons. A command line that cannot be read and a name that
no attribute can have are noticed before any file is looked at, so they leave the tree as
it was. A path that leads to nothing is noticed when its turn comes: what the paths before
it did stays done, and that is all a run over these paths alone would do. A run that fails
never sums up.
-/

import AttributeLists.Proofs.Command.Options
import AttributeLists.Proofs.Command.Run
import AttributeLists.Proofs.Name.Attribute

namespace AttributeLists.Command

/-- Names are accepted together exactly if each of them is. -/
theorem exists_mapM_ofText_eq_ok_iff (names : List String) :
    (∃ accepted, names.mapM (AttributeName.ofText <| Text.ofString ·) = .ok accepted) ↔
      ∀ name ∈ names, isAttributeName (Text.ofString name) = true := by
  have texts : names.mapM (AttributeName.ofText <| Text.ofString ·) =
      (names.map Text.ofString).mapM AttributeName.ofText :=
    (List.mapM_map (f := Text.ofString) (g := AttributeName.ofText)).symm
  rw [texts, AttributeName.exists_mapM_ofText_eq_ok_iff, List.forall_mem_map]

theorem isAttributeName_withDefaults (asked : Options) :
    (∀ name ∈ asked.withDefaults.attributes, isAttributeName (Text.ofString name) = true) ↔
      ∀ name ∈ asked.attributes, isAttributeName (Text.ofString name) = true := by
  have default_valid : isAttributeName (Text.ofString defaultAttribute) = true := by
    decide +kernel
  cases named : asked.attributes with
  | nil => simpa [Options.withDefaults, named] using default_valid
  | cons name names => simp [Options.withDefaults, named]

/-- The line sums a run up. -/
def IsSummary (line : String) : Prop :=
  ∃ label dryRun done, line = Progress.summary label dryRun done

/-- A summary starts with a word that no other line starts with. -/
theorem IsSummary.prefix_toList {line : String} (sums : IsSummary line) :
    "Processed".toList <+: line.toList := by
  obtain ⟨label, dryRun, done, rfl⟩ := sums
  rw [Progress.summary]
  simp only [String.toList_append, List.append_assoc]
  exact ⟨' ' :: _, rfl⟩

private theorem not_isSummary_of_mem_singleton {line message : String}
    (printed : line ∈ [message]) (start : ¬ "Processed".toList <+: message.toList) :
    ¬ IsSummary line := by
  obtain rfl := List.mem_singleton.mp printed
  exact fun sums => start sums.prefix_toList

namespace Progress

/-- Nothing has been summed up so far. -/
def Unsummed (done : Progress) : Prop :=
  ∀ line ∈ done.lines, ¬ IsSummary line

variable {done : Progress}

theorem Unsummed.script (unsummed : done.Unsummed) (job : PruneJob) (s : Script) :
    (script job done s).Unsummed := by
  intro line printed sums
  simp only [Progress.script, List.mem_append] at printed
  rcases printed with earlier | report
  · exact unsummed line earlier sums
  · split at report
    · exact not_isSummary_of_mem_singleton report (by simp [String.toList_append]) sums
    · contradiction

theorem Unsummed.foldl_script (unsummed : done.Unsummed) (job : PruneJob)
    (scripts : List Script) :
    (scripts.foldl (Progress.script job) done).Unsummed := by
  induction scripts generalizing done with
  | nil => exact unsummed
  | cons s scripts ih => exact ih (unsummed.script job s)

theorem Unsummed.path (unsummed : done.Unsummed) (job : PruneJob) (p : Path) :
    (path job done p).Unsummed := by
  rw [Progress.path]
  split
  · intro line printed sums
    rcases List.mem_append.mp printed with earlier | report
    · exact unsummed line earlier sums
    · exact not_isSummary_of_mem_singleton report (by simp [String.toList_append]) sums
  · exact unsummed.foldl_script job _

theorem Unsummed.paths (unsummed : done.Unsummed) (job : PruneJob) (targets : List Path) :
    (paths job done targets).1.Unsummed := by
  induction targets generalizing done with
  | nil => exact unsummed
  | cons p targets ih =>
      rw [Progress.paths]
      split
      · exact ih (unsummed.path job p)
      · exact unsummed

/-- The first path that leads to nothing ends a run in the state that the paths before it
left. -/
theorem paths_of_missing (job : PruneJob) (done : Progress) {before later : List Path}
    {missing : Path} (present : ∀ p ∈ before, done.tree.lookup p ≠ none)
    (absent : done.tree.lookup missing = none) :
    paths job done (before ++ missing :: later) = ((paths job done before).1, some missing) := by
  induction before generalizing done with
  | nil => simp [paths, absent]
  | cons p before ih =>
      obtain ⟨node, found⟩ := Option.ne_none_iff_exists'.mp (present p List.mem_cons_self)
      have still_present : ∀ q ∈ before, (path job done p).tree.lookup q ≠ none := by
        intro q inside
        rw [ne_eq, lookup_path_eq_none_iff]
        exact present q (List.mem_cons_of_mem _ inside)
      have still_absent : (path job done p).tree.lookup missing = none :=
        (lookup_path_eq_none_iff job done p missing).mpr absent
      simp only [List.cons_append, paths, found]
      exact ih _ still_present still_absent

end Progress

variable (job : PruneJob) (label : String) {tree : FileTree}

theorem unsummed_start (tree : FileTree) : Progress.Unsummed ⟨tree, [], 0, 0⟩ := by
  simp [Progress.Unsummed]

/-- A run over paths of which one leads to nothing does what a run over the paths before
it does, and fails without summing up. -/
theorem work_of_missing {before : List Path} {missing : Path} (later : List Path)
    (present : ∀ p ∈ before, tree.lookup p ≠ none) (absent : tree.lookup missing = none) :
    let outcome := work job label (before ++ missing :: later) tree
    outcome.tree = (work job label before tree).tree ∧ outcome.failed = true ∧
      ∀ line ∈ outcome.lines, ¬ IsSummary line := by
  have stopped : Progress.paths job ⟨tree, [], 0, 0⟩ (before ++ missing :: later) = _ :=
    Progress.paths_of_missing job ⟨tree, [], 0, 0⟩ present absent
  have unsummed := (unsummed_start tree).paths job before
  obtain ⟨ended, -⟩ := Progress.paths_of_present job ⟨tree, [], 0, 0⟩ before present
  rw [work, work, stopped]
  generalize Progress.paths job ⟨tree, [], 0, 0⟩ before = reached at ended unsummed
  rcases reached with ⟨done, stop⟩
  obtain rfl : stop = none := ended
  refine ⟨rfl, rfl, ?_⟩
  intro line printed sums
  rcases List.mem_append.mp printed with earlier | report
  · exact unsummed line earlier sums
  · exact not_isSummary_of_mem_singleton report (by simp [String.toList_append]) sums

/-- Among paths of which one leads to nothing there is a first such path. -/
theorem exists_first_missing {targets : List Path}
    (some_missing : ∃ p ∈ targets, tree.lookup p = none) :
    ∃ before missing later, targets = before ++ missing :: later ∧
      (∀ p ∈ before, tree.lookup p ≠ none) ∧ tree.lookup missing = none := by
  obtain ⟨p, inside, absent⟩ := some_missing
  have found : (targets.find? fun q => (tree.lookup q).isNone).isSome :=
    List.find?_isSome.mpr ⟨p, inside, by rw [absent]; rfl⟩
  obtain ⟨missing, first⟩ := Option.isSome_iff_exists.mp found
  obtain ⟨missing_absent, before, later, split, others⟩ := List.find?_eq_some_iff_append.mp first
  refine ⟨before, missing, later, split, fun q early => ?_,
    Option.isNone_iff_eq_none.mp missing_absent⟩
  simpa [Option.isSome_iff_ne_none] using others q early

/-- A run over paths fails exactly if one of them leads to nothing. -/
theorem failed_work_iff (targets : List Path) :
    (work job label targets tree).failed = true ↔ ∃ p ∈ targets, tree.lookup p = none := by
  constructor
  · intro failed
    by_contra none_missing
    have present : ∀ p ∈ targets, tree.lookup p ≠ none := by
      intro p inside absent
      exact none_missing ⟨p, inside, absent⟩
    rw [work_eq_of_visits_perm job label present (List.Perm.refl _)] at failed
    contradiction
  · intro some_missing
    obtain ⟨before, missing, later, rfl, present, absent⟩ := exists_first_missing some_missing
    exact (work_of_missing job label later present absent).2.1

theorem status_work_of_present {targets : List Path}
    (present : ∀ p ∈ targets, tree.lookup p ≠ none) : (work job label targets tree).status = 0 := by
  refine if_neg ?_
  rw [failed_work_iff]
  rintro ⟨p, inside, absent⟩
  exact present p inside absent

/-- Defaults are filled in only where nothing is asked for. -/
theorem paths_withDefaults (asked : Options) (some_path : asked.paths ≠ []) :
    asked.withDefaults.paths = asked.paths := by
  cases named : asked.paths with
  | nil => exact absurd named some_path
  | cons p targets => simp [Options.withDefaults, named]

theorem paths_eq_of_withDefaults_eq {asked : Options} {before later : List Path}
    {missing : Path} (split : asked.withDefaults.paths = before ++ missing :: later)
    (some_before : before ≠ []) : asked.paths = before ++ missing :: later := by
  rw [← split, paths_withDefaults asked]
  intro none_asked
  have alone : asked.withDefaults.paths = [Path.current] := by
    simp [Options.withDefaults, none_asked]
  obtain ⟨p, others, rfl⟩ := List.exists_cons_of_ne_nil some_before
  rw [alone] at split
  simp at split

section Refused

variable {arguments : List String} {asked : Options}

theorem run_of_unread {cause : UsageError} (unread : Options.ofArguments arguments = .error cause)
    (tree : FileTree) : run arguments tree = ⟨tree, [cause.message], true⟩ := by
  simp only [run, unread]

theorem run_of_refused {cause : InvalidName} (parsed : Options.ofArguments arguments = .ok asked)
    (refused : asked.withDefaults.attributes.mapM (AttributeName.ofText <| Text.ofString ·) =
      .error cause) (tree : FileTree) : run arguments tree = ⟨tree, [cause.message], true⟩ := by
  simp only [run, parsed, refused]

/-- A run that fails does not sum up. -/
theorem not_isSummary_of_failed (failed : (run arguments tree).failed = true) :
    ∀ line ∈ (run arguments tree).lines, ¬ IsSummary line := by
  cases parsed : Options.ofArguments arguments with
  | error cause =>
      rw [run_of_unread parsed]
      intro line printed
      refine not_isSummary_of_mem_singleton printed ?_
      cases cause <;> simp [UsageError.message, String.toList_append]
  | ok asked =>
      cases accepted : asked.withDefaults.attributes.mapM
          (AttributeName.ofText <| Text.ofString ·) with
      | error cause =>
          rw [run_of_refused parsed accepted]
          intro line printed
          refine not_isSummary_of_mem_singleton printed ?_
          unfold InvalidName.message
          -- The value is kept closed, since its shown form would be unfolded.
          generalize cause.value.shown = shown
          simp [String.toList_append]
      | ok names =>
          have worked : run arguments tree = work _ _ asked.withDefaults.paths tree :=
            run_eq_work parsed accepted tree
          rw [worked, failed_work_iff] at failed
          obtain ⟨before, missing, later, split, present, absent⟩ := exists_first_missing failed
          rw [split] at worked
          rw [worked]
          exact (work_of_missing _ _ later present absent).2.2

theorem status_run_of_names (parsed : Options.ofArguments arguments = .ok asked)
    (invalid : ∃ name ∈ asked.attributes, isAttributeName (Text.ofString name) = false) :
    (run arguments tree).status = 1 ∧ (run arguments tree).tree = tree := by
  cases accepted : asked.withDefaults.attributes.mapM
      (AttributeName.ofText <| Text.ofString ·) with
  | error cause =>
      rw [run_of_refused parsed accepted]
      exact ⟨rfl, rfl⟩
  | ok names =>
      have valid := (exists_mapM_ofText_eq_ok_iff _).mp ⟨names, accepted⟩
      obtain ⟨name, named, refused⟩ := invalid
      have allowed := (isAttributeName_withDefaults asked).mp valid name named
      rw [refused] at allowed
      contradiction

end Refused

/-- A run that fails leaves the tree as it is, unless it fails at a path: then it leaves
what a run over the paths before it leaves, and does not sum up. All other runs succeed. -/
theorem run_failures (arguments : List String) (tree : FileTree) :
    let outcome := run arguments tree
    (∀ cause, Options.ofArguments arguments = .error cause →
      outcome.status = 1 ∧ outcome.tree = tree) ∧
    ∀ asked, Options.ofArguments arguments = .ok asked →
      ((∃ name ∈ asked.attributes, isAttributeName (Text.ofString name) = false) →
        outcome.status = 1 ∧ outcome.tree = tree) ∧
      ((∀ name ∈ asked.attributes, isAttributeName (Text.ofString name) = true) →
        (∀ before missing later, asked.withDefaults.paths = before ++ missing :: later →
          (∀ p ∈ before, tree.lookup p ≠ none) → tree.lookup missing = none →
          outcome.status = 1 ∧ (∀ line ∈ outcome.lines, ¬ IsSummary line) ∧
          (before = [] → outcome.tree = tree) ∧
          (before ≠ [] →
            (∃ fewer, Options.ofArguments fewer = .ok { asked with paths := before }) ∧
            ∀ fewer, Options.ofArguments fewer = .ok { asked with paths := before } →
              (run fewer tree).status = 0 ∧ outcome.tree = (run fewer tree).tree)) ∧
        ((∀ p ∈ asked.withDefaults.paths, tree.lookup p ≠ none) → outcome.status = 0)) := by
  intro outcome
  refine ⟨fun cause unread => ?_, fun asked parsed => ⟨status_run_of_names parsed, ?_⟩⟩
  · rw [show outcome = _ from run_of_unread unread tree]
    exact ⟨rfl, rfl⟩
  · intro valid
    obtain ⟨names, accepted⟩ := (exists_mapM_ofText_eq_ok_iff _).mpr
      ((isAttributeName_withDefaults asked).mpr valid)
    have worked : outcome = work ⟨names, asked.collapse, asked.dryRun⟩
        (", ".intercalate asked.withDefaults.attributes) asked.withDefaults.paths tree :=
      run_eq_work parsed accepted tree
    refine ⟨fun before missing later split present absent => ?_, fun present => ?_⟩
    · rw [split] at worked
      obtain ⟨left, failed, unsummed⟩ := work_of_missing ⟨names, asked.collapse, asked.dryRun⟩
        (", ".intercalate asked.withDefaults.attributes) later present absent
      rw [← worked] at left failed unsummed
      refine ⟨if_pos failed, unsummed, ?_, fun some_before => ⟨?_, fun fewer fewer_parsed => ?_⟩⟩
      · rintro rfl
        exact left
      · have asks := (Options.asks_iff.mpr parsed).exists_fewer_paths
          ⟨missing :: later, (paths_eq_of_withDefaults_eq split some_before).symm⟩
        obtain ⟨fewer, kept⟩ := asks
        exact ⟨fewer, Options.asks_iff.mp kept⟩
      · have fewer_worked := run_eq_work fewer_parsed accepted tree
        simp only [paths_withDefaults { asked with paths := before } some_before] at fewer_worked
        rw [fewer_worked]
        exact ⟨status_work_of_present _ _ present, left⟩
    · rw [worked]
      exact status_work_of_present _ _ present

/-- The script before the missing path loses its list, the one after it does not. Both are
reached from the root, and the missing one is looked for above the current folder. -/
theorem run_failures_at_second_path :
    let bytes := Utf8.encode (Text.ofString "[T]")
    let tree := FileTree.empty.insert (some bytes) ["w", "a.cs"] |>.insert (some bytes) ["c.cs"]
      |>.enter ["w"]
    let arguments := ["--attribute=T", "/w/a.cs", "../b.cs", "../c.cs"]
    let first : Path := ⟨.single, ["w", "a.cs"]⟩
    let above (name : String) : Path := ⟨.relative, ["..", name]⟩
    let asked : Options := ⟨["T"], [first, above "b.cs", above "c.cs"], false, true⟩
    Options.ofArguments arguments = .ok asked ∧
    (∀ name ∈ asked.attributes, isAttributeName (Text.ofString name) = true) ∧
    asked.withDefaults.paths = [first] ++ above "b.cs" :: [above "c.cs"] ∧
    (∀ p ∈ [first], tree.lookup p ≠ none) ∧ tree.lookup (above "b.cs") = none ∧
    (run arguments tree).status = 1 ∧
    (run arguments tree).tree = (run ["--attribute=T", "/w/a.cs"] tree).tree ∧
    (run arguments tree).tree.files = [(["w", "a.cs"], []), (["c.cs"], bytes)] := by
  intro bytes tree arguments first above asked
  have parsed : Options.ofArguments arguments = .ok asked := rfl
  have valid : ∀ name ∈ asked.attributes, isAttributeName (Text.ofString name) = true := by
    decide +kernel
  have split : asked.withDefaults.paths = [first] ++ above "b.cs" :: [above "c.cs"] := rfl
  have present : ∀ p ∈ [first], tree.lookup p ≠ none := by decide +kernel
  have absent : tree.lookup (above "b.cs") = none := by decide +kernel
  obtain ⟨failed, -, -, left⟩ := ((run_failures arguments tree).2 asked parsed).2 valid |>.1
    [first] (above "b.cs") [above "c.cs"] split present absent
  have same := (left (List.cons_ne_nil _ _)).2 ["--attribute=T", "/w/a.cs"] rfl
  exact ⟨parsed, valid, split, present, absent, failed, same.2, by decide +kernel⟩

end AttributeLists.Command
