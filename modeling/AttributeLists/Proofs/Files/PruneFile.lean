/-
# Pruning a file

All names are checked before the text is looked at. A program that checks each name when
its turn comes does the same, since it keeps the text to itself until every attribute has
been taken out: `pruneFileInTurn` is that program, and a failure leaves its tree as it was.

Every entry that is taken out costs the text an opening bracket or a comma. These are
bytes of their own, so a file from which something was taken out has other bytes.

A file can be pruned in several calls, each of which reads what the one before it wrote.
If the bytes are valid this is the text that was written; stray bytes that come to stand
next to each other may be read as a character.
-/

import AttributeLists.Proofs.Files.Script
import AttributeLists.Proofs.Name.Identifier
import AttributeLists.Proofs.Prune.Several

namespace AttributeLists

namespace Utf8

/-- The number of bytes that are an opening bracket or a comma. -/
def entryMarks (bytes : Bytes) : Nat :=
  bytes.count 0x5B + bytes.count 0x2C

theorem entryMarks_encode (t : Text) : entryMarks (encode t) = t.entryMarks :=
  congrArg₂ (· + ·) (count_encode (c := '[') (by decide) t)
    (count_encode (c := ',') (by decide) t)

end Utf8

namespace PruneJob

variable (job : PruneJob) (bytes : Bytes)

theorem rewrite_eq :
    job.rewrite bytes = Utf8.encode ((Utf8.decode bytes).pruneAll job.names job.collapse).text := by
  rw [rewrite, Text.text_pruneAll]

/-- Each entry taken out of a file is charged to one of its bytes. -/
theorem entryMarks_rewrite_add_le :
    Utf8.entryMarks (job.rewrite bytes) + (job.onBytes bytes).2 ≤ Utf8.entryMarks bytes := by
  have before : Utf8.entryMarks bytes = (Utf8.decode bytes).entryMarks := by
    rw [← Utf8.entryMarks_encode, Utf8.encode_decode]
  rw [before, rewrite_eq, Utf8.entryMarks_encode, onBytes, Text.pruneAll_eq_pruneEach]
  exact Text.entryMarks_pruneEach_le _ (Utf8.decode bytes)

/-- The bytes change exactly if something is taken out. -/
theorem rewrite_ne_iff : job.rewrite bytes ≠ bytes ↔ 0 < (job.onBytes bytes).2 := by
  rw [Nat.pos_iff_ne_zero, not_iff_not]
  constructor
  · intro same
    have marks := job.entryMarks_rewrite_add_le bytes
    rw [same] at marks
    omega
  · intro unremoved
    rw [← onBytes_fst]
    exact if_pos unremoved

/-- Valid bytes are rewritten in one go to what they are rewritten to in two. -/
theorem rewrite_append {bytes : Bytes} (valid : bytes.toByteArray.IsValidUTF8)
    (names others : List AttributeName) (collapse dryRun : Bool) :
    let first : PruneJob := ⟨names, collapse, dryRun⟩
    let second : PruneJob := ⟨others, collapse, dryRun⟩
    let both : PruneJob := ⟨names ++ others, collapse, dryRun⟩
    both.rewrite bytes = second.rewrite (first.rewrite bytes) ∧
      (both.onBytes bytes).2 =
        (first.onBytes bytes).2 + (second.onBytes (first.rewrite bytes)).2 := by
  intro first second both
  have free := (Utf8.isValidUTF8_iff_strayFree_decode.mp valid).pruneAll names collapse
  have read : Utf8.decode (first.rewrite bytes) =
      ((Utf8.decode bytes).pruneAll names collapse).text := by
    rw [rewrite_eq]
    exact Utf8.decode_encode free
  constructor
  · rw [rewrite_eq, rewrite_eq second, read, Text.pruneAll_append]
  · simp only [onBytes, read, both, Text.pruneAll_append]
    rfl

variable {bytes} {tree : FileTree} {location : Location}

/-- What becomes of a tree in which a file is processed. -/
theorem onFile_of_file (stands : tree.node? location = some (.file bytes)) :
    job.onFile location tree =
      (tree.write location (if job.dryRun then bytes else job.rewrite bytes),
        (job.onBytes bytes).2) := by
  refine Prod.ext ?_ (by simp only [onFile, stands])
  rw [onFile_fst]
  cases job.dryRun with
  | true => exact (FileTree.write_same stands).symm
  | false => exact FileTree.mapFile_eq_write stands _

end PruneJob

/-- `pruneFile` as a program that works on a tree and checks each name when its turn
comes. -/
def pruneFileInTurn (p : Path) (attributes : List Text) (collapse dryRun : Bool) :
    EStateM PruneError FileTree Nat := do
  let tree ← get
  match tree.locate p with
  | .error cause => throw (.access cause)
  | .ok location =>
      match tree.node? location with
      | some (.file bytes) =>
          match Text.pruneInTurn collapse attributes ⟨Utf8.decode bytes, 0⟩ with
          | .error cause => throw (.name cause)
          | .ok pruned =>
              if 0 < pruned.removed && !dryRun then
                set (tree.write location (Utf8.encode pruned.text))
              return pruned.removed
      | _ => throw .notAFile

section PruneFile

variable {tree : FileTree} {p : Path} {location : Location} {bytes : Bytes}

theorem pruneFile_of_file (located : tree.locate p = .ok location)
    (stands : tree.node? location = some (.file bytes)) (attributes : List Text)
    (collapse dryRun : Bool) :
    pruneFile p attributes collapse dryRun tree =
      ((attributes.mapM AttributeName.ofText).mapError .name).map fun names =>
        PruneJob.onFile ⟨names, collapse, dryRun⟩ location tree := by
  rw [pruneFile, located]
  simp only [Except.mapError, bind, Except.bind, stands]
  cases attributes.mapM AttributeName.ofText <;> rfl

/-- Checking each name when its turn comes changes neither the outcome nor what is left of
the tree: a failure leaves all of it. -/
theorem run_pruneFileInTurn (p : Path) (attributes : List Text) (collapse dryRun : Bool)
    (tree : FileTree) :
    (pruneFileInTurn p attributes collapse dryRun).run tree =
      match pruneFile p attributes collapse dryRun tree with
      | .ok (after, count) => .ok count after
      | .error cause => .error cause tree := by
  have looked (program : FileTree → EStateM PruneError FileTree Nat) :
      (get >>= program).run tree = (program tree).run tree := rfl
  rw [pruneFileInTurn, looked]
  cases located : tree.locate p with
  | error cause =>
      rw [pruneFile, located]
      rfl
  | ok location =>
      cases found : tree.node? location with
      | none =>
          simp only [pruneFile, located, found, Except.mapError, bind, Except.bind]
          rfl
      | some node =>
          cases node with
          | folder inner =>
              simp only [pruneFile, located, found, Except.mapError, bind, Except.bind]
              rfl
          | file bytes =>
              rw [pruneFile_of_file located found]
              simp only [found, Text.pruneInTurn_eq, Nat.zero_add]
              cases attributes.mapM AttributeName.ofText with
              | error cause => rfl
              | ok names =>
                  -- The file is written or not, in both programs under the same condition.
                  simp only [Except.map, Except.mapError, PruneJob.onFile, PruneJob.onBytes, found]
                  by_cases unremoved : ((Utf8.decode bytes).pruneAll names collapse).removed = 0
                  · simp only [unremoved, Nat.lt_irrefl]
                    rfl
                  · have removed : 0 < ((Utf8.decode bytes).pruneAll names collapse).removed :=
                      Nat.pos_of_ne_zero unremoved
                    cases dryRun with
                    | true =>
                        simp only [removed, unremoved]
                        rfl
                    | false =>
                        simp only [removed, unremoved]
                        rfl

/-- An existing file can only be refused for the first of the names that is none. -/
theorem pruneFile_eq_error_iff (located : tree.locate p = .ok location)
    (stands : tree.node? location = some (.file bytes)) {attributes : List Text}
    {collapse dryRun : Bool} {cause : PruneError} :
    pruneFile p attributes collapse dryRun tree = .error cause ↔
      ∃ refused, attributes.find? (!isAttributeName ·) = some refused ∧
        cause = .name ⟨.text refused⟩ := by
  rw [pruneFile_of_file located stands]
  cases checked : attributes.mapM AttributeName.ofText with
  | error invalid =>
      obtain ⟨first, found, rfl⟩ := AttributeName.mapM_ofText_eq_error_iff.mp checked
      simp [found, Except.mapError, Except.map, eq_comm]
  | ok names =>
      constructor
      · intro failed
        simp [Except.mapError, Except.map] at failed
      · rintro ⟨refused, found, -⟩
        have failed := AttributeName.mapM_ofText_eq_error_iff.mpr ⟨refused, found, rfl⟩
        rw [checked] at failed
        contradiction

theorem pruneFile_eq_ok_iff (located : tree.locate p = .ok location)
    (stands : tree.node? location = some (.file bytes)) {attributes : List Text}
    {collapse dryRun : Bool} {after : FileTree} {count : Nat} :
    pruneFile p attributes collapse dryRun tree = .ok (after, count) ↔
      ∃ names, names.map AttributeName.text = attributes ∧
        let job : PruneJob := ⟨names, collapse, dryRun⟩
        after = tree.write location (if dryRun then bytes else job.rewrite bytes) ∧
          count = (job.onBytes bytes).2 := by
  simp only [pruneFile_of_file located stands, ← AttributeName.mapM_ofText_eq_ok_iff]
  cases attributes.mapM AttributeName.ofText with
  | error invalid => simp [Except.mapError, Except.map]
  | ok names =>
      simp [Except.mapError, Except.map, PruneJob.onFile_of_file _ stands, eq_comm]

/-- Decoding a file loses none of its bytes. Whatever is taken out of the decoded text, what
is left has no glyph but those of the file and spaces, and it has an encoding. So pruning an
existing file fails only if a name is refused, which is the first one that is none; nothing of
the tree has changed by then. Otherwise the file has other bytes afterwards exactly if the run
is not dry and counts something, and it counts what each attribute loses after the ones
before it. -/
theorem pruneFile_outcome (bytes : Bytes) :
    Utf8.encode (Utf8.decode bytes) = bytes ∧
    (∀ runs, let left := ((Utf8.decode bytes).pruneEach runs).text
      (∀ g ∈ left, g ∈ Utf8.decode bytes ∨ g = .char ' ') ∧
      Utf8.encodeCodePoints? (left.map Glyph.codePoint) = some (Utf8.encode left)) ∧
    ∀ (tree : FileTree) (p : Path) (location : Location) (attributes : List Text)
      (collapse dryRun : Bool),
      tree.locate p = .ok location → tree.node? location = some (.file bytes) →
      (∀ cause, pruneFile p attributes collapse dryRun tree = .error cause →
        (pruneFileInTurn p attributes collapse dryRun).run tree = .error cause tree ∧
        ∃ refused, attributes.find? (!isAttributeName ·) = some refused ∧
          cause = .name ⟨.text refused⟩) ∧
      ∀ after count, pruneFile p attributes collapse dryRun tree = .ok (after, count) →
        (pruneFileInTurn p attributes collapse dryRun).run tree = .ok count after ∧
        ∃ names, names.map AttributeName.text = attributes ∧
          let job : PruneJob := ⟨names, collapse, dryRun⟩
          let written := if dryRun then bytes else job.rewrite bytes
          after = tree.write location written ∧
          after.node? location = some (.file written) ∧
          (written ≠ bytes ↔ dryRun = false ∧ 0 < count) ∧
          count = ((Utf8.decode bytes).losses collapse names).sum := by
  refine ⟨Utf8.encode_decode bytes, fun runs => ⟨fun g => Text.mem_of_mem_text_pruneEach,
    Utf8.encodeCodePoints?_map_codePoint _⟩, ?_⟩
  intro tree p location attributes collapse dryRun located stands
  have in_turn := run_pruneFileInTurn p attributes collapse dryRun tree
  constructor
  · intro cause failed
    rw [failed] at in_turn
    exact ⟨in_turn, (pruneFile_eq_error_iff located stands).mp failed⟩
  · intro after count succeeded
    rw [succeeded] at in_turn
    obtain ⟨names, accepted, rfl, rfl⟩ := (pruneFile_eq_ok_iff located stands).mp succeeded
    let job : PruneJob := ⟨names, collapse, dryRun⟩
    refine ⟨in_turn, names, accepted, rfl, FileTree.node?_write stands _, ?_,
      Text.removed_pruneAll names collapse _⟩
    rw [← job.rewrite_ne_iff bytes]
    cases dryRun <;> simp [job]

/-- The file starts with a stray byte. In the call that fails, the name that is refused
stands behind one that would lose entries. -/
theorem pruneFile_outcome_beside_stray_byte :
    let bytes := 0xE9 :: Utf8.encode (Text.ofString "[T, A, T]")
    let tree := FileTree.empty.insert (some bytes) ["a.cs"]
    let p : Path := ⟨.relative, ["a.cs"]⟩
    let valid := [Text.ofString "T", Text.ofString "A"]
    let invalid := [Text.ofString "T", Text.ofString "A B", Text.ofString "A"]
    tree.locate p = .ok ["a.cs"] ∧ tree.node? ["a.cs"] = some (.file bytes) ∧
    (∃ after, (pruneFileInTurn p valid true false).run tree = .ok 3 after ∧
      ∃ written ≠ bytes, after.node? ["a.cs"] = some (.file written)) ∧
    (pruneFileInTurn p invalid true false).run tree =
      .error (.name ⟨.text (Text.ofString "A B")⟩) tree := by
  intro bytes tree p valid invalid
  have located : tree.locate p = .ok ["a.cs"] := by decide +kernel
  have stands : tree.node? ["a.cs"] = some (.file bytes) := by decide +kernel
  refine ⟨located, stands, ?_, ?_⟩
  · have counted : (pruneFile p valid true false tree).toOption.map Prod.snd = some 3 := by
      decide +kernel
    cases outcome : pruneFile p valid true false tree with
    | error cause => simp [outcome, Except.toOption] at counted
    | ok result =>
        obtain ⟨after, count⟩ := result
        obtain rfl : count = 3 := by simpa [outcome, Except.toOption] using counted
        obtain ⟨in_turn, names, -, -, found, changed, -⟩ :=
          ((pruneFile_outcome bytes).2.2 tree p _ valid true false located stands).2 after 3 outcome
        exact ⟨after, in_turn, _, changed.mpr ⟨rfl, by decide⟩, found⟩
  · have failed : (pruneFile p invalid true false tree).toOption.isNone = true := by
      decide +kernel
    cases outcome : pruneFile p invalid true false tree with
    | ok result => simp [outcome, Except.toOption] at failed
    | error cause =>
        obtain ⟨in_turn, refused, first, rfl⟩ :=
          ((pruneFile_outcome bytes).2.2 tree p _ invalid true false located stands).1 cause outcome
        have second : invalid.find? (!isAttributeName ·) = some (Text.ofString "A B") := by
          decide +kernel
        obtain rfl := Option.some.inj (first.symm.trans second)
        exact in_turn

theorem pruneFile_of_names (located : tree.locate p = .ok location)
    (stands : tree.node? location = some (.file bytes)) (names : List AttributeName)
    (collapse : Bool) :
    let job : PruneJob := ⟨names, collapse, false⟩
    pruneFile p (names.map AttributeName.text) collapse false tree =
      .ok (tree.write location (job.rewrite bytes), (job.onBytes bytes).2) := by
  intro job
  exact (pruneFile_eq_ok_iff located stands).mpr ⟨names, rfl, rfl, rfl⟩

/-- A file with valid bytes can be pruned in two calls: one for some of the attributes,
then one for the others. The tree is left as one call for all of them leaves it, and the
two counts add up to its count. -/
theorem pruneFile_append (located : tree.locate p = .ok location)
    (stands : tree.node? location = some (.file bytes))
    (valid : bytes.toByteArray.IsValidUTF8) (names others : List AttributeName)
    (collapse : Bool) :
    ∃ between after first second,
      pruneFile p (names.map AttributeName.text) collapse false tree = .ok (between, first) ∧
      pruneFile p (others.map AttributeName.text) collapse false between = .ok (after, second) ∧
      pruneFile p ((names ++ others).map AttributeName.text) collapse false tree =
        .ok (after, first + second) := by
  let first : PruneJob := ⟨names, collapse, false⟩
  have located_again : (tree.write location (first.rewrite bytes)).locate p = .ok location := by
    rw [FileTree.locate_write, located]
  have stands_again := FileTree.node?_write stands (first.rewrite bytes)
  obtain ⟨rewritten, counted⟩ := PruneJob.rewrite_append valid names others collapse false
  refine ⟨_, _, _, _, pruneFile_of_names located stands names collapse,
    pruneFile_of_names located_again stands_again others collapse, ?_⟩
  rw [pruneFile_of_names located stands (names ++ others) collapse, FileTree.write_write,
    rewritten, counted]

/-- What the first call writes is read back by the second one, with a character of two bytes
in front. -/
theorem pruneFile_append_two_names :
    let bytes := Utf8.encode (Text.ofString "é [T, A]\n[A]")
    let tree := FileTree.empty.insert (some bytes) ["a.cs"]
    let p : Path := ⟨.relative, ["a.cs"]⟩
    let names : List AttributeName := [⟨Text.ofString "T", isAttributeName_singleton rfl⟩]
    let others : List AttributeName := [⟨Text.ofString "A", isAttributeName_singleton rfl⟩]
    tree.locate p = .ok ["a.cs"] ∧ tree.node? ["a.cs"] = some (.file bytes) ∧
    bytes.toByteArray.IsValidUTF8 ∧
    ∃ between after first second,
      pruneFile p (names.map AttributeName.text) true false tree = .ok (between, first) ∧
      pruneFile p (others.map AttributeName.text) true false between = .ok (after, second) ∧
      pruneFile p ((names ++ others).map AttributeName.text) true false tree =
        .ok (after, first + second) ∧
      after.files = [(["a.cs"], Utf8.encode (Text.ofString "é \n"))] ∧ first + second = 3 := by
  intro bytes tree p names others
  have located : tree.locate p = .ok ["a.cs"] := by decide +kernel
  have stands : tree.node? ["a.cs"] = some (.file bytes) := by decide +kernel
  have valid : bytes.toByteArray.IsValidUTF8 :=
    Utf8.isValidUTF8_encode (Text.strayFree_ofString _)
  have result :
      (pruneFile p ((names ++ others).map AttributeName.text) true false tree).toOption.map
        (fun left => (left.1.files, left.2)) =
      some ([(["a.cs"], Utf8.encode (Text.ofString "é \n"))], 3) := by decide +kernel
  obtain ⟨between, after, first, second, once, again, both⟩ :=
    pruneFile_append located stands valid names others true
  rw [both] at result
  obtain ⟨files, count⟩ := Prod.mk.inj (Option.some.inj result)
  exact ⟨located, stands, valid, between, after, first, second, once, again, both, files, count⟩

end PruneFile

end AttributeLists
