/-
# The scripts that a path leads to

A folder is searched at every depth: whatever stands in it under some names and is a file with
the right extension is found, once, and nothing else is. The scripts come in the order of
their locations, component by component, which is the order of lists of names and not that of
written paths. A path to a file finds that file or nothing, and a path to nothing finds
nothing.

The extension is what a name has after its last dot, if that dot is neither its first nor its
last character.
-/

import Mathlib.Data.List.Lex
import Mathlib.Data.List.TakeWhile
import Mathlib.Data.String.Basic
import AttributeLists.Proofs.Files.Script
import AttributeLists.Proofs.Text.LetterCase

namespace AttributeLists

/-- The name has something in front of its last dot, and this behind it. -/
def HasExtension (name : String) (behind : List Char) : Prop :=
  ∃ stem, name.toList = stem ++ '.' :: behind ∧ '.' ∉ behind ∧ stem ≠ [] ∧ behind ≠ []

/-- The name has the extension of scripts, in either case. -/
def NamesScript (name : String) : Prop :=
  ∃ behind, HasExtension name behind ∧ SpelledInEitherCase "cs" behind

/-- The last component of the path names a script. -/
def Path.NamesScript (p : Path) : Prop :=
  ∃ name, p.components.getLast? = some name ∧ AttributeLists.NamesScript name

/-- The extension is read backwards from the end of the name. -/
theorem extension_of_hasExtension {name : String} {behind : List Char}
    (has : HasExtension name behind) : extension name = behind := by
  obtain ⟨stem, whole, undotted, started, -⟩ := has
  have backwards : name.toList.reverse = behind.reverse ++ '.' :: stem.reverse := by
    simp [whole]
  have inside : ∀ c ∈ behind.reverse, (c != '.') = true := by
    intro c listed
    rw [bne_iff_ne]
    rintro rfl
    exact undotted (List.mem_reverse.mp listed)
  have taken : name.toList.reverse.takeWhile (· != '.') = behind.reverse := by
    rw [backwards, List.takeWhile_append_of_pos inside]
    simp
  have dropped : name.toList.reverse.dropWhile (· != '.') = '.' :: stem.reverse := by
    rw [backwards, List.dropWhile_append_of_pos inside]
    simp
  obtain ⟨last, front, named⟩ : ∃ last front, stem.reverse = last :: front :=
    List.exists_cons_of_ne_nil (by simpa using started)
  simp only [extension, dropped, named, taken, List.reverse_reverse]

theorem hasExtension_extension {name : String} (nonempty : extension name ≠ []) :
    HasExtension name (extension name) := by
  generalize found : extension name = behind at nonempty ⊢
  simp only [extension] at found
  split at found
  · rename_i dot last front dropped
    have undotted : '.' ∉ name.toList.reverse.takeWhile (· != '.') := by
      intro inside
      simpa using List.mem_takeWhile_imp inside
    have dotted : dot = '.' := by
      have stop := List.head?_dropWhile_not (· != '.') name.toList.reverse
      simpa [dropped] using stop
    have whole := List.takeWhile_append_dropWhile (p := (· != '.')) (l := name.toList.reverse)
    rw [dropped, dotted] at whole
    have forwards := congrArg List.reverse whole
    rw [List.reverse_reverse] at forwards
    rw [← List.mem_reverse, found] at undotted
    refine ⟨(last :: front).reverse, ?_, undotted, by simp, nonempty⟩
    rw [← forwards, ← found]
    simp
  · exact absurd found.symm nonempty

theorem isScriptName_iff {name : String} : isScriptName name = true ↔ NamesScript name := by
  have small : ∀ letter ∈ "cs".toList, letter.isUpper = false := by simp
  have spelled : isScriptName name = true ↔ SpelledInEitherCase "cs" (extension name) := by
    rw [← map_toLower_eq_iff small, isScriptName, beq_iff_eq]
    rfl
  rw [spelled, NamesScript]
  constructor
  · intro spells
    have nonempty : extension name ≠ [] := by
      intro empty
      simpa [empty] using spells.length_eq
    exact ⟨_, hasExtension_extension nonempty, spells⟩
  · rintro ⟨behind, has, spells⟩
    rwa [extension_of_hasExtension has]

/-- Locations are compared as lists of names. -/
theorem Location.precedes_iff {a b : Location} : a.precedes b = true ↔ a < b := by
  have names (x y : String) : List.lex x.toList y.toList (fun c d => c.toNat < d.toNat) = true ↔
      x < y := by
    rw [List.lex_eq_true_iff_lex, String.lt_iff, ← List.lex_lt]
    simp only [decide_eq_true_eq]
    rfl
  rw [precedes, List.lex_eq_true_iff_lex, ← List.lex_lt]
  simp only [names]

namespace Script

/-- The scripts of a well-formed folder come in strictly increasing order. -/
theorem pairwise_locationsIn {f : Folder} (h : f.WellFormed) :
    (locationsIn f).Pairwise (· < ·) := by
  rw [locationsIn]
  generalize found : (f.files.map Prod.fst).filter
    (fun location => isScriptName (location.getLastD "")) = locations
  have distinct : (locations.mergeSort fun a b => !Location.precedes b a).Nodup := by
    rw [(List.mergeSort_perm _ _).nodup_iff, ← found]
    exact (Folder.nodup_files h).filter _
  have comes_before (a b : Location) : (!Location.precedes b a) = true ↔ a ≤ b := by
    rw [Bool.not_eq_true', Bool.eq_false_iff, Ne, Location.precedes_iff, not_lt]
  have ordered : (locations.mergeSort fun a b => !Location.precedes b a).Pairwise (· ≤ ·) := by
    have sorted : (locations.mergeSort fun a b => !Location.precedes b a).Pairwise
        fun a b => (!Location.precedes b a) = true := by
      apply List.pairwise_mergeSort
      · simpa only [comes_before] using fun a b c : Location => le_trans
      · simpa only [Bool.or_eq_true, comes_before] using fun a b : Location => le_total a b
    exact sorted.imp fun {a b} => (comes_before a b).mp
  exact (ordered.and distinct).imp fun both => lt_of_le_of_ne both.1 both.2

end Script

namespace Path

theorem namesScript_iff {p : Path} {location : Location}
    (same : p.components.getLast? = location.getLast?) (nonempty : location ≠ []) :
    p.NamesScript ↔ isScriptName (location.getLastD "") = true := by
  rw [NamesScript, same, List.getLast?_eq_getLast_of_ne_nil nonempty, isScriptName_iff,
    List.getLastD_eq_getLast?, List.getLast?_eq_getLast_of_ne_nil nonempty]
  simp

theorem namesScript_append {below : Location} (nonempty : below ≠ []) (p : Path) :
    (p.append below).NamesScript ↔ isScriptName (below.getLastD "") = true :=
  namesScript_iff (List.getLast?_append_of_ne_nil _ nonempty) nonempty

end Path

namespace Script

variable {tree : FileTree} {p : Path}

theorem map_path_allAt_of_folder {inner : Folder} (found : tree.lookup p = some (.folder inner)) :
    (allAt tree p).map path = (locationsIn inner).map p.append := by
  obtain ⟨location, located, stands⟩ := FileTree.exists_of_lookup found
  simp only [allAt, located, stands, List.map_map]
  rfl

theorem map_path_allAt_of_file {bytes : Bytes} (found : tree.lookup p = some (.file bytes)) :
    (p.NamesScript → (allAt tree p).map path = [p]) ∧
      (¬ p.NamesScript → (allAt tree p).map path = []) := by
  obtain ⟨location, located, stands⟩ := FileTree.exists_of_lookup found
  obtain ⟨last, nonempty⟩ := FileTree.getLast?_of_locate located stands
  rw [Path.namesScript_iff last nonempty]
  simp only [allAt, located, stands]
  constructor
  · intro scripted
    rw [if_pos scripted]
    rfl
  · intro other
    rw [if_neg other]
    rfl

theorem mem_map_append_iff {inner : Folder} (h : inner.WellFormed) {q : Path} :
    q ∈ (locationsIn inner).map p.append ↔
      ∃ below bytes, inner.node? below = some (.file bytes) ∧ q = p.append below ∧
        q.NamesScript := by
  rw [List.mem_map]
  constructor
  · rintro ⟨below, listed, rfl⟩
    obtain ⟨⟨bytes, inside⟩, scripted⟩ := mem_locationsIn.mp listed
    obtain ⟨name, deeper, rfl, -⟩ := Folder.exists_of_mem_files inside
    exact ⟨_, bytes, (Folder.mem_files_iff h).mp inside, rfl,
      (Path.namesScript_append (List.cons_ne_nil name deeper) p).mpr scripted⟩
  · rintro ⟨below, bytes, stands, rfl, scripted⟩
    have nonempty : below ≠ [] := by
      rintro rfl
      simp [Folder.node?] at stands
    have inside : (below, bytes) ∈ inner.files := (Folder.mem_files_iff h).mpr stands
    rw [Path.namesScript_append nonempty] at scripted
    exact ⟨below, mem_locationsIn.mpr ⟨⟨bytes, inside⟩, scripted⟩, rfl⟩

/-- In a folder a path finds every file with the extension of scripts at any depth, each once
and in strictly increasing order, and nothing else. Of a file it finds that file if it has the
extension, and of nothing it finds nothing. Each script stands where its path leads to. -/
theorem allAt_finds_scripts (tree : FileTree) (p : Path) :
    (∀ inner, tree.lookup p = some (.folder inner) →
      (∀ q, q ∈ (allAt tree p).map path ↔
        ∃ below bytes, inner.node? below = some (.file bytes) ∧ q = p.append below ∧
          q.NamesScript) ∧
      ((allAt tree p).map path).Pairwise (fun q r => q.components < r.components) ∧
      ((allAt tree p).map path).Nodup) ∧
    (∀ bytes, tree.lookup p = some (.file bytes) →
      (p.NamesScript → (allAt tree p).map path = [p]) ∧
      (¬ p.NamesScript → (allAt tree p).map path = [])) ∧
    (tree.lookup p = none → (allAt tree p).map path = []) ∧
    ∀ s ∈ allAt tree p, tree.locate s.path = .ok s.location := by
  refine ⟨fun inner found => ?_, fun bytes found => ?_, fun missing => ?_, fun s found => ?_⟩
  · obtain ⟨location, -, stands⟩ := FileTree.exists_of_lookup found
    have formed : inner.WellFormed := tree.wellFormed.of_node? stands
    have increasing : ((locationsIn inner).map p.append).Pairwise
        fun q r => q.components < r.components :=
      (pairwise_locationsIn formed).map p.append fun _ _ before => List.append_left_lt before
    rw [map_path_allAt_of_folder found]
    refine ⟨fun q => mem_map_append_iff formed, increasing, ?_⟩
    apply increasing.imp
    rintro q _ before rfl
    exact lt_irrefl _ before
  · exact map_path_allAt_of_file found
  · rw [allAt_of_lookup_eq_none missing, List.map_nil]
  · exact (of_mem_allAt found).1

/-- The scripts in the folder `A` come before the script `A.cs`, although a full stop comes
before a slash in written paths. -/
example : ["A", "b.cs"] < ["A.cs"] ∧ ¬ "A/b.cs" < "A.cs" := by
  decide

/-- The root is a folder like any other, and it is reached by going up as well. -/
example :
    let tree := FileTree.empty.insert (some []) ["w", "a.cs"] |>.insert (some []) ["w", ".cs"]
      |>.enter ["w"]
    (allAt tree (.ofString "/")).map (·.path.toString) = ["/w/a.cs"] ∧
      (allAt tree (.ofString "../..")).map (·.path.toString) = ["../../w/a.cs"] := by
  decide +kernel

end Script

end AttributeLists
