/-
# Trees with other files

Paths lead through names only, so they lead to the same locations in a tree whose files
have other bytes, and what exists stays. The current folder stays as well.

`LeadsTo` says where components lead from a folder; a path leads there from the root or from
the current folder. Going on from the location of a folder through the names of one of its
files leads to that file, and every path to a file ends with the name of that file.
-/

import AttributeLists.Files.FileTree
import AttributeLists.Proofs.Files.Folder

namespace AttributeLists

namespace FileTree

variable {tree : FileTree}

theorem ext {one other : FileTree} (same : one.top = other.top)
    (current : one.current = other.current) : one = other := by
  cases one
  cases other
  cases same
  cases current
  rfl

/-- The tree with other bytes in its files, as a rule gives them for the location and
the bytes of each file. -/
def mapFiles (rule : Location → Bytes → Bytes) (tree : FileTree) : FileTree where
  top := tree.top.mapFiles rule
  wellFormed := tree.wellFormed.mapFiles rule
  current := tree.current
  current_stands := (Folder.hasFolder_mapFiles rule tree.current tree.top).trans tree.current_stands

theorem mapFiles_mapFiles (first second : Location → Bytes → Bytes) (tree : FileTree) :
    (tree.mapFiles first).mapFiles second =
      tree.mapFiles fun location bytes => second location (first location bytes) :=
  ext (Folder.mapFiles_mapFiles first second tree.top) rfl

theorem mapFiles_congr {rule other : Location → Bytes → Bytes}
    (agree : ∀ file ∈ tree.files, rule file.1 file.2 = other file.1 file.2) :
    tree.mapFiles rule = tree.mapFiles other :=
  ext (Folder.mapFiles_congr agree) rfl

@[simp]
theorem mapFiles_same (tree : FileTree) : (tree.mapFiles fun _ bytes => bytes) = tree :=
  ext (Folder.mapFiles_same tree.top) rfl

theorem files_mapFiles (rule : Location → Bytes → Bytes) (tree : FileTree) :
    (tree.mapFiles rule).files = tree.files.map fun file => (file.1, rule file.1 file.2) :=
  Folder.files_mapFiles rule tree.top

theorem node?_mapFiles (rule : Location → Bytes → Bytes) (location : Location)
    (tree : FileTree) :
    (tree.mapFiles rule).node? location =
      (tree.node? location).map (Node.mapFiles fun below => rule (location ++ below)) :=
  Folder.node?_mapFiles rule location tree.top

theorem node?_of_mem_files {location : Location} {bytes : Bytes}
    (inside : (location, bytes) ∈ tree.files) : tree.node? location = some (.file bytes) :=
  Folder.node?_of_mem_files tree.wellFormed inside

/-- The tree with the file at one location rewritten, if there is one. -/
def mapFile (location : Location) (rewrite : Bytes → Bytes) (tree : FileTree) : FileTree :=
  tree.mapFiles fun other bytes => if other = location then rewrite bytes else bytes

theorem write_eq_mapFile (location : Location) (bytes : Bytes) (tree : FileTree) :
    tree.write location bytes = tree.mapFile location fun _ => bytes :=
  ext (Folder.write_eq_mapFiles tree.wellFormed location bytes) rfl

/-- Rewriting a file is writing what its bytes are rewritten to. -/
theorem mapFile_eq_write {location : Location} {bytes : Bytes}
    (stands : tree.node? location = some (.file bytes)) (rewrite : Bytes → Bytes) :
    tree.mapFile location rewrite = tree.write location (rewrite bytes) := by
  rw [write_eq_mapFile]
  apply mapFiles_congr
  rintro ⟨other, old⟩ inside
  by_cases same : other = location
  · subst same
    have stands_also := node?_of_mem_files inside
    obtain rfl : bytes = old := by simpa [stands] using stands_also
    rfl
  · simp [same]

theorem node?_write {location : Location} {bytes : Bytes}
    (stands : tree.node? location = some (.file bytes)) (written : Bytes) :
    (tree.write location written).node? location = some (.file written) := by
  rw [write_eq_mapFile, mapFile, node?_mapFiles, stands]
  simp [Node.mapFiles]

/-- Of two writes to the same file the second one lasts. -/
theorem write_write (location : Location) (first second : Bytes) (tree : FileTree) :
    (tree.write location first).write location second = tree.write location second := by
  simp only [write_eq_mapFile, mapFile, mapFiles_mapFiles]
  apply mapFiles_congr
  rintro ⟨other, old⟩ -
  by_cases same : other = location <;> simp [same]

theorem write_same {location : Location} {bytes : Bytes}
    (stands : tree.node? location = some (.file bytes)) : tree.write location bytes = tree := by
  have kept := mapFile_eq_write stands fun old => old
  simpa [mapFile] using kept.symm

theorem mapFile_of_not_file {location : Location}
    (unfiled : ∀ bytes, tree.node? location ≠ some (.file bytes)) (rewrite : Bytes → Bytes) :
    tree.mapFile location rewrite = tree := by
  have kept : tree.mapFile location rewrite = tree.mapFiles fun _ bytes => bytes := by
    apply mapFiles_congr
    rintro ⟨other, bytes⟩ inside
    refine if_neg ?_
    rintro rfl
    exact unfiled bytes (node?_of_mem_files inside)
  rw [kept, mapFiles_same]

/-- Rewriting files at two locations can be done in either order. -/
theorem mapFile_comm {one other : Location} (different : one ≠ other)
    (rewrite : Bytes → Bytes) (tree : FileTree) :
    (tree.mapFile one rewrite).mapFile other rewrite =
      (tree.mapFile other rewrite).mapFile one rewrite := by
  simp only [mapFile, mapFiles_mapFiles]
  apply mapFiles_congr
  rintro ⟨location, bytes⟩ -
  by_cases first : location = one
  · simp [first, different]
  · simp [first]

theorem locateFrom_mapFiles (rule : Location → Bytes → Bytes) (here : Location)
    (components : List String) (tree : FileTree) :
    (tree.mapFiles rule).locateFrom here components = tree.locateFrom here components := by
  induction components generalizing here with
  | nil => rfl
  | cons name rest ih =>
      rw [locateFrom, locateFrom, node?_mapFiles]
      simp only [ih]
      cases tree.node? (here ++ [name]) with
      | none => rfl
      | some node => cases node <;> rfl

@[simp]
theorem locate_mapFiles (rule : Location → Bytes → Bytes) (p : Path) (tree : FileTree) :
    (tree.mapFiles rule).locate p = tree.locate p := by
  exact locateFrom_mapFiles rule (tree.start p.root) p.components tree

@[simp]
theorem locate_write (location : Location) (bytes : Bytes) (p : Path) (tree : FileTree) :
    (tree.write location bytes).locate p = tree.locate p := by
  rw [write_eq_mapFile]
  exact locate_mapFiles ..

theorem lookup_mapFiles_eq_none (rule : Location → Bytes → Bytes) (p : Path)
    (tree : FileTree) : (tree.mapFiles rule).lookup p = none ↔ tree.lookup p = none := by
  rw [lookup, lookup, locate_mapFiles]
  cases tree.locate p with
  | error cause => exact Iff.rfl
  | ok location => simp [node?_mapFiles]

/-- What has something below it is a folder. -/
theorem exists_folder_of_node?_append {location below : Location} {node : Node}
    (deeper : below ≠ []) (stands : tree.node? (location ++ below) = some node) :
    ∃ inner, tree.node? location = some (.folder inner) := by
  rw [node?, Folder.node?_append] at stands
  rw [node?]
  cases outer : tree.top.node? location with
  | none => simp [outer] at stands
  | some reached =>
      cases reached with
      | folder inner => exact ⟨inner, rfl⟩
      | file bytes => simp [outer, deeper] at stands

theorem node?_start (tree : FileTree) (root : PathRoot) :
    ∃ inner, tree.node? (tree.start root) = some (.folder inner) := by
  cases root with
  | relative => exact Folder.hasFolder_iff.mp tree.current_stands
  | single => exact ⟨tree.top, rfl⟩
  | double => exact ⟨tree.top, rfl⟩

/-- Around a folder there is a folder. -/
theorem node?_dropLast {location : Location} {inner : Folder}
    (stands : tree.node? location = some (.folder inner)) :
    ∃ outer, tree.node? location.dropLast = some (.folder outer) := by
  by_cases top : location = []
  · exact ⟨tree.top, by rw [top]; rfl⟩
  · rw [← List.dropLast_concat_getLast top] at stands
    exact exists_folder_of_node?_append (List.cons_ne_nil _ _) stands

/-- Components lead from a folder to a location: each goes up to the folder around it or down
to a folder in it, and the last one may go down to a file. Around the root is the root. -/
inductive LeadsTo (tree : FileTree) : Location → List String → Location → Prop
  | stay (here : Location) : LeadsTo tree here [] here
  | up {here target : Location} {rest : List String}
      (further : LeadsTo tree here.dropLast rest target) : LeadsTo tree here (".." :: rest) target
  | down {here target : Location} {name : String} {rest : List String} {folder : Folder}
      (downward : name ≠ "..") (reached : tree.node? (here ++ [name]) = some (.folder folder))
      (further : LeadsTo tree (here ++ [name]) rest target) :
      LeadsTo tree here (name :: rest) target
  | file {here : Location} {name : String} {bytes : Bytes} (downward : name ≠ "..")
      (reached : tree.node? (here ++ [name]) = some (.file bytes)) :
      LeadsTo tree here [name] (here ++ [name])

theorem locateFrom_eq_ok_iff {here target : Location} {components : List String} :
    tree.locateFrom here components = .ok target ↔ tree.LeadsTo here components target := by
  constructor
  · intro located
    induction components generalizing here with
    | nil =>
        obtain rfl : here = target := by simpa [locateFrom] using located
        exact .stay here
    | cons name rest ih =>
        rw [locateFrom] at located
        by_cases upward : name = ".."
        · rw [if_pos upward] at located
          exact upward ▸ .up (ih located)
        · rw [if_neg upward] at located
          cases reached : tree.node? (here ++ [name]) with
          | none => simp [reached] at located
          | some node =>
              rw [reached] at located
              cases node with
              | folder folder => exact .down upward reached (ih located)
              | file bytes =>
                  by_cases last : rest = []
                  · obtain rfl : here ++ [name] = target := by simpa [last] using located
                    exact last ▸ .file upward reached
                  · simp [last] at located
  · intro leads
    induction leads with
    | stay here => rfl
    | up further ih => rw [locateFrom, if_pos rfl, ih]
    | down downward reached further ih =>
        rw [locateFrom, if_neg downward, reached]
        exact ih
    | file downward reached =>
        rw [locateFrom, if_neg downward, reached]
        rfl

theorem locate_eq_ok_iff {p : Path} {target : Location} :
    tree.locate p = .ok target ↔ tree.LeadsTo (tree.start p.root) p.components target :=
  locateFrom_eq_ok_iff

/-- Three ways to the same file: from the current folder, from the root, and from above the
root back down. There is no way up from a file. -/
example :
    let tree := FileTree.empty.insert (some []) ["w", "a.cs"] |>.enter ["w"]
    (∀ written ∈ ["a.cs", "//w/./a.cs", "../../w/a.cs"],
      tree.lookup (.ofString written) = some (.file [])) ∧
      tree.lookup (.ofString "a.cs/../a.cs") = none := by
  decide +kernel

/-- Components after those that lead to a folder lead on from it. -/
theorem LeadsTo.append {here location target : Location} {first more : List String}
    {inner : Folder} (leads : tree.LeadsTo here first location)
    (found : tree.node? location = some (.folder inner))
    (further : tree.LeadsTo location more target) : tree.LeadsTo here (first ++ more) target := by
  induction leads with
  | stay here => exact further
  | up _ ih => exact .up (ih found further)
  | down downward reached _ ih => exact .down downward reached (ih found further)
  | file downward reached => simp [reached] at found

/-- The names of a file lead to it. -/
theorem leadsTo_of_file {here below : Location} {bytes : Bytes}
    (named : ∀ name ∈ below, isEntryName name = true)
    (stands : tree.node? (here ++ below) = some (.file bytes)) :
    tree.LeadsTo here below (here ++ below) := by
  induction below generalizing here with
  | nil => exact (List.append_nil here).symm ▸ .stay here
  | cons name rest ih =>
      have downward : name ≠ ".." := by
        rintro rfl
        exact absurd (named ".." List.mem_cons_self) (by decide)
      cases rest with
      | nil => exact .file downward stands
      | cons next rest =>
          rw [List.append_cons] at stands ⊢
          obtain ⟨folder, reached⟩ := exists_folder_of_node?_append (List.cons_ne_nil _ _) stands
          have further : ∀ other ∈ next :: rest, isEntryName other = true :=
            fun other inside => named other (List.mem_cons_of_mem _ inside)
          exact .down downward reached (ih further stands)

/-- A path to a folder that goes on through the names of one of its files leads to it. -/
theorem locate_append {p : Path} {start below : Location} {inner : Folder} {bytes : Bytes}
    (located : tree.locate p = .ok start) (found : tree.node? start = some (.folder inner))
    (inside : (below, bytes) ∈ inner.files) :
    tree.locate (p.append below) = .ok (start ++ below) ∧
      tree.node? (start ++ below) = some (.file bytes) := by
  have formed : inner.WellFormed := tree.wellFormed.of_node? found
  have stands : tree.node? (start ++ below) = some (.file bytes) := by
    rw [node?] at found ⊢
    rw [Folder.node?_append, found]
    exact Folder.node?_of_mem_files formed inside
  have leads := locate_eq_ok_iff.mp located
  have named := Folder.isEntryName_of_mem_files formed inside
  exact ⟨locate_eq_ok_iff.mpr (leads.append found (leadsTo_of_file named stands)), stands⟩

/-- Components that lead from a folder to a file end with the name of the file. -/
theorem LeadsTo.getLast? {here target : Location} {components : List String}
    {inner : Folder} {bytes : Bytes} (leads : tree.LeadsTo here components target)
    (start : tree.node? here = some (.folder inner))
    (stands : tree.node? target = some (.file bytes)) :
    components.getLast? = target.getLast? ∧ target ≠ [] := by
  -- A component in front of others does not change what they end with.
  have goes_on (name : String) {rest names : List String}
      (ends : rest.getLast? = names.getLast? ∧ names ≠ []) :
      (name :: rest).getLast? = names.getLast? ∧ names ≠ [] := by
    rw [List.getLast?_cons, ends.1, List.getLast?_eq_some_getLast ends.2]
    exact ⟨rfl, ends.2⟩
  induction leads generalizing inner with
  | stay here => simp [start] at stands
  | up _ ih =>
      obtain ⟨outer, around⟩ := node?_dropLast start
      exact goes_on ".." (ih around stands)
  | @down _ _ name _ _ _ reached _ ih => exact goes_on name (ih reached stands)
  | file => simp

theorem getLast?_of_locate {p : Path} {location : Location} {bytes : Bytes}
    (located : tree.locate p = .ok location) (stands : tree.node? location = some (.file bytes)) :
    p.components.getLast? = location.getLast? ∧ location ≠ [] := by
  obtain ⟨inner, start⟩ := tree.node?_start p.root
  exact (locate_eq_ok_iff.mp located).getLast? start stands

theorem exists_of_lookup {p : Path} {node : Node} (found : tree.lookup p = some node) :
    ∃ location, tree.locate p = .ok location ∧ tree.node? location = some node := by
  rw [lookup] at found
  cases located : tree.locate p with
  | error cause => simp [located] at found
  | ok location => exact ⟨location, rfl, by simpa [located] using found⟩

end FileTree

end AttributeLists
