/-
# Scripts in trees with other files

Which scripts a path leads to is a matter of names, so it stays while scripts are
processed, and each of them is found again by the path that it was found under.

Processing a script rewrites the file at its location and no other. The file is written
only if something was taken out; a text that loses nothing stays, and its encoding is
the bytes that it was decoded from, so the rewriting can be said without that case.
Scripts at two locations can therefore be processed in either order.
-/

import AttributeLists.Files.Script
import AttributeLists.Proofs.Files.FileTree
import AttributeLists.Proofs.Prune.Draft

namespace AttributeLists

namespace Script

variable {tree : FileTree}

theorem locationsIn_mapFiles (rule : Location → Bytes → Bytes) (f : Folder) :
    locationsIn (f.mapFiles rule) = locationsIn f := by
  simp only [locationsIn, Folder.files_mapFiles, List.map_map, Function.comp_def]

/-- Paths lead to the same scripts while files are rewritten. -/
@[simp]
theorem allAt_mapFiles (rule : Location → Bytes → Bytes) (tree : FileTree) (p : Path) :
    allAt (tree.mapFiles rule) p = allAt tree p := by
  rw [allAt, allAt, FileTree.locate_mapFiles]
  cases tree.locate p with
  | error cause => rfl
  | ok location =>
      simp only [FileTree.node?_mapFiles]
      cases tree.node? location with
      | none => rfl
      | some node =>
          cases node with
          | file bytes => rfl
          | folder inner =>
              simp only [Option.map_some, Node.mapFiles, locationsIn_mapFiles]

theorem allAt_of_lookup_eq_none {p : Path} (missing : tree.lookup p = none) :
    allAt tree p = [] := by
  rw [FileTree.lookup] at missing
  rw [allAt]
  cases located : tree.locate p with
  | error cause => rfl
  | ok location =>
      rw [located] at missing
      simp only [missing]

theorem mem_locationsIn {f : Folder} {below : Location} :
    below ∈ locationsIn f ↔
      (∃ bytes, (below, bytes) ∈ f.files) ∧ isScriptName (below.getLastD "") = true := by
  simp [locationsIn]

/-- A script stands where its path leads to, at the location of the path that it was
found under or below it. -/
theorem of_mem_allAt {p : Path} {s : Script} (found : s ∈ allAt tree p) :
    tree.locate s.path = .ok s.location ∧
      (∃ bytes, tree.node? s.location = some (.file bytes)) ∧
      isScriptName (s.location.getLastD "") = true ∧
      ∃ start, tree.locate p = .ok start ∧ start <+: s.location := by
  rw [allAt] at found
  cases located : tree.locate p with
  | error cause => simp [located] at found
  | ok start =>
      rw [located] at found
      cases node : tree.node? start with
      | none => simp [node] at found
      | some reached =>
          simp only [node] at found
          cases reached with
          | file bytes =>
              obtain ⟨scripted, rfl⟩ : isScriptName (start.getLastD "") = true ∧
                  s = ⟨p, start⟩ := by simpa using found
              exact ⟨located, ⟨bytes, node⟩, scripted, start, rfl, List.prefix_rfl⟩
          | folder inner =>
              obtain ⟨below, listed, rfl⟩ := List.mem_map.mp found
              obtain ⟨⟨bytes, inside⟩, scripted⟩ := mem_locationsIn.mp listed
              obtain ⟨leads, stands⟩ := FileTree.locate_append located node inside
              obtain ⟨name, deeper, rfl, -⟩ := Folder.exists_of_mem_files inside
              have last : (start ++ name :: deeper).getLastD "" =
                  (name :: deeper).getLastD "" := by
                simp [List.getLastD_eq_getLast?, List.getLast?_append, List.getLast?_cons]
              exact ⟨leads, ⟨bytes, stands⟩, last ▸ scripted, start, rfl,
                List.prefix_append _ _⟩

/-- The path of a script leads to that script and nothing else. -/
theorem allAt_path {p : Path} {s : Script} (found : s ∈ allAt tree p) :
    allAt tree s.path = [s] := by
  obtain ⟨located, ⟨bytes, stands⟩, scripted, -⟩ := of_mem_allAt found
  simp only [allAt, located, stands, scripted, if_true]

theorem flatMap_allAt_path (tree : FileTree) (p : Path) :
    ((allAt tree p).map path).flatMap (allAt tree) = allAt tree p := by
  have each : ∀ s ∈ allAt tree p, allAt tree s.path = [s] := fun s found => allAt_path found
  rw [List.flatMap_map, List.flatMap_congr each, List.flatMap_singleton']

end Script

namespace PruneJob

variable {tree : FileTree}

/-- What a file holds after it was processed: the encoding of its decoded text without
the attributes. -/
def rewrite (job : PruneJob) (bytes : Bytes) : Bytes :=
  Utf8.encode (job.names.foldl (fun t name => (t.prune name job.collapse).text)
    (Utf8.decode bytes))

/-- Bytes that are not written are those that would be written. -/
theorem onBytes_fst (job : PruneJob) (bytes : Bytes) :
    (job.onBytes bytes).1 = job.rewrite bytes := by
  simp only [onBytes, rewrite, ← Text.text_pruneAll]
  split
  · rename_i unremoved
    rw [Text.text_pruneAll_of_removed_eq_zero unremoved, Utf8.encode_decode]
  · rfl

/-- Processing the file at a location rewrites it, unless the run is dry. -/
theorem onFile_fst (job : PruneJob) (location : Location) (tree : FileTree) :
    (job.onFile location tree).1 =
      if job.dryRun then tree else tree.mapFile location job.rewrite := by
  unfold onFile
  split
  · rename_i bytes stands
    cases dry : job.dryRun with
    | true => simp
    | false =>
        rw [FileTree.mapFile_eq_write stands, ← onBytes_fst]
        by_cases unremoved : (job.onBytes bytes).2 = 0
        · have kept : (job.onBytes bytes).1 = bytes := if_pos unremoved
          simp [unremoved, kept, FileTree.write_same stands]
        · simp [unremoved]
  · rename_i other
    rw [FileTree.mapFile_of_not_file other, ite_self]

/-- Rewriting one file does not change what is found in another one. -/
theorem onFile_mapFile_snd_of_ne (job : PruneJob) {one other : Location}
    (different : one ≠ other) (rewrite : Bytes → Bytes) (tree : FileTree) :
    (job.onFile one (tree.mapFile other rewrite)).2 = (job.onFile one tree).2 := by
  rw [onFile, onFile, FileTree.mapFile, FileTree.node?_mapFiles]
  cases tree.node? one with
  | none => rfl
  | some node =>
      cases node with
      | folder inner => rfl
      | file bytes => simp [Node.mapFiles, different]

end PruneJob

end AttributeLists
